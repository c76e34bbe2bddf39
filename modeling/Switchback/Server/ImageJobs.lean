import Switchback.Core.NetGuard
import Switchback.Credentials.Resolver
import Switchback.Ledger.Spend
import Switchback.Runtime.Access
import Switchback.Server.FalEndpoint
import Switchback.Server.FalJobs

/-!
# Image requests

An image request goes to a fal provider, to a ComfyUI provider or to the built-in mock, by its
model.  What it uses is recorded in the ledger that budgets are checked against.
-/

namespace Switchback

namespace Workloads

open Lib

/-! ### Requests and providers -/

/-- The body of an image request. -/
structure ImageGenerationRequest where
  model : String
  prompt : String
  size : Option String := none
  seed : Option ℤ := none
  n : ℕ := 1
  metadata : OrdMap String String := OrdMap.empty

/-- A workflow of the config: its graph and where its inputs are bound. -/
structure ComfyUiWorkflow where
  id : String
  graph : Json
  bindings : OrdMap String (List String) := OrdMap.empty

/-- The kinds of providers that draw. -/
inductive ProviderKind where
  | fal (baseUrl : String)
  | comfyUi (baseUrl : String) (workflows : List ComfyUiWorkflow)
  | other

/-- A provider of the config. -/
structure ProviderConfig where
  id : String
  kind : ProviderKind

/-- The tenant's lists and its cap. -/
structure TenantPolicy extends TenantConfig where
  allowedProviders : List String := []
  budgetUsd : Option F64 := none

/-- What the config says about images. -/
structure ImageConfig where
  providers : List ProviderConfig
  tenants : List TenantPolicy := []
  budgetMaxUsd : Option F64 := none
  perProviderUsd : OrdMap String F64 := OrdMap.empty
  blockPrivateNetworks : Bool := false

/-- The policy of a tenant. -/
def ImageConfig.tenant (cfg : ImageConfig) (id : String) : Option TenantPolicy :=
  cfg.tenants.find? fun t => t.id = id

/-- What a request meets outside of the gateway before it is submitted: the URL parser, the network
of the guard, the HTTP client and the credential sources. -/
structure Outside where
  parser : Url.Parser
  parseError : String := ""
  asStr : Url → String
  net : NetGuard.Net
  client : Except String Unit := .ok ()
  mint : Mint := .static

/-- The provider a fal target names, with its base URL and the model. -/
def resolveFalModel (cfg : ImageConfig) (target : String) :
    Option (ProviderConfig × String × String) := do
  let (providerId, model) ← Text.splitOnce "/" target
  if model = "" then none
  let provider ← cfg.providers.find? fun p => p.id = providerId
  match provider.kind with
  | .fal baseUrl => some (provider, baseUrl, model)
  | _ => none

/-- The provider and the workflow that a target names. -/
def resolveComfyuiWorkflow (cfg : ImageConfig) (model : String) :
    Option (ProviderConfig × String × ComfyUiWorkflow) := do
  let (providerId, workflowId) ← Text.splitOnce "/" model
  let provider ← cfg.providers.find? fun p => p.id = providerId
  match provider.kind with
  | .comfyUi baseUrl workflows =>
    (workflows.find? fun w => w.id = workflowId).map fun w => (provider, baseUrl, w)
  | _ => none

/-! ### Checks before a submission -/

/-- A decimal word of 32 bits, with an optional sign. -/
def parseU32 (s : String) : Option ℕ :=
  let digits := match s.toList with
    | '+' :: digits => digits
    | digits => digits
  if digits = [] ∨ !digits.all Url.isDigit ∨ 2 ^ 32 ≤ Ip.number 10 digits then none
  else some (Ip.number 10 digits)

/-- Width and height of a size such as `1024x768`. -/
def parseSize (size : Option String) : Option (ℕ × ℕ) := do
  let size ← size
  let (width, height) ← Text.splitOnce "x" size
  let width ← parseU32 width
  let height ← parseU32 height
  pure (width, height)

/-- One image, of a size that reads, for a prompt. -/
def validateSingleImageRequest (request : ImageGenerationRequest) (adapter : String) :
    Except WorkloadError Unit :=
  if Text.trim request.prompt = "" then .error (.invalidRequest "prompt is required")
  else if request.n ≠ 1 then
    .error (.invalidRequest s!"{adapter} image workflow supports n=1 per request")
  else if request.size.isSome && (parseSize request.size).isNone then
    .error (.invalidRequest "size must be WIDTHxHEIGHT")
  else .ok ()

/-- The common shape of the checks of a ComfyUI and of a mock request. -/
def validateOne (request : ImageGenerationRequest) (tooMany : String) : Except WorkloadError Unit :=
  if Text.trim request.prompt = "" then .error (.invalidRequest "prompt is required")
  else if request.n = 0 then .error (.invalidRequest "n must be at least 1")
  else if request.n > 1 then .error (.invalidRequest tooMany)
  else .ok ()

def validateComfyuiRequest (request : ImageGenerationRequest) : Except WorkloadError Unit :=
  validateOne request "comfyui image workflow supports n=1 per request"

/-- The guard of a provider's URL. -/
def guardProviderUrl (cfg : ImageConfig) (outside : Outside) (url : String) :
    Except WorkloadError Unit :=
  match NetGuard.guardUrl outside.net url .providerUpstream cfg.blockPrivateNetworks with
  | .ok _ => .ok ()
  | .error (.invalidUrl m) | .error (.resolveFailed m) | .error (.blockedPrivate m) =>
    .error (.invalidRequest m)

/-- The key for a fal provider. -/
def resolveFalLease (resolver : CredentialResolver) (mint : Mint) (providerId model : String)
    (now : ℕ) : Except WorkloadError (String × CredentialLease) :=
  match (resolver.resolveWithSession providerId model [] none now).1 with
  | .allUnavailable _ =>
    .error (.upstream s!"fal provider `{providerId}` has no available credential account")
  | .noAccounts =>
    .error (.invalidRequest s!"fal provider `{providerId}` has no configured credential account")
  | .selected accountId lease =>
    match freshLease accountId lease mint with
    | .error e => .error (.upstream s!"resolve fal credential: {e}")
    | .ok lease =>
      if lease.secret = "" then
        .error (.invalidRequest s!"fal provider `{providerId}` credential is empty")
      else .ok (accountId, lease)

/-- What precedes the commit point of a fal job: the account it is submitted with. -/
def prepareFal (cfg : ImageConfig) (resolver : CredentialResolver) (outside : Outside)
    (providerId baseUrl model : String) (request : ImageGenerationRequest) (now : ℕ) :
    Except WorkloadError String :=
  validateSingleImageRequest request "fal" >>= fun _ =>
  resolveFalLease resolver outside.mint providerId model now >>= fun lease =>
  (outside.client.mapError fun e => WorkloadError.internal s!"build fal client: {e}") >>= fun _ =>
  falModelEndpoint outside.parser outside.parseError baseUrl model none >>= fun url =>
  (guardProviderUrl cfg outside (outside.asStr url)).map fun _ => lease.1

/-! ### A ComfyUI dispatch -/

/-- A value set at a path of object fields. -/
def setJsonPath : Json → List String → Json → Except WorkloadError Json
  | _, [], _ => .error (.invalidRequest "binding path must not be empty")
  | .obj fields, [last], value => .ok (.obj (OrdMap.insertList last value fields))
  | _, [last], _ => .error (.invalidRequest s!"binding parent for `{last}` is not an object")
  | .obj fields, segment :: path, value =>
    match OrdMap.getList segment fields with
    | none => .error (.invalidRequest s!"binding path segment `{segment}` not found")
    | some child =>
      (setJsonPath child path value).map fun child => .obj (OrdMap.insertList segment child fields)
  | _, segment :: _, _ => .error (.invalidRequest s!"binding path segment `{segment}` not found")

/-- An input that the workflow has to bind. -/
def bindRequired (workflow : ComfyUiWorkflow) (name : String) (value : Json) (graph : Json) :
    Except WorkloadError Json :=
  match workflow.bindings.get name with
  | none =>
    .error (.invalidRequest s!"workflow `{workflow.id}` missing required `{name}` binding")
  | some path => setJsonPath graph path value

/-- An input that is left out where the workflow binds none. -/
def bindOptional (workflow : ComfyUiWorkflow) (name : String) (value : Json) (graph : Json) :
    Except WorkloadError Json :=
  match workflow.bindings.get name with
  | none => .ok graph
  | some path => setJsonPath graph path value

/-- A signed number as JSON. -/
def ofInt (n : ℤ) : Json := if n < 0 then .num (.negInt n) else .num (.posInt n.toNat)

/-- The graph with the inputs of a request. -/
def bindComfyuiImageInputs (workflow : ComfyUiWorkflow) (request : ImageGenerationRequest) :
    Except WorkloadError Json :=
  bindRequired workflow "prompt" (.str request.prompt) workflow.graph >>= fun graph =>
  (match request.seed with
    | some seed => bindOptional workflow "seed" (ofInt seed) graph
    | none => .ok graph) >>= fun graph =>
  (match parseSize request.size with
    | some (width, height) =>
      bindOptional workflow "width" (Json.ofNat width) graph >>=
        bindOptional workflow "height" (Json.ofNat height)
    | none => .ok graph) >>= fun graph =>
  request.metadata.entries.foldlM
    (fun graph entry => bindOptional workflow entry.1 (.str entry.2) graph) graph

/-- A path under the base URL. -/
def comfyEndpoint (outside : Outside) (baseUrl path : String) : Except WorkloadError Url :=
  match (outside.parser.parse (normalizedBase baseUrl)).bind fun base =>
      outside.parser.join base path.toList with
  | some url => .ok url
  | none => .error (.invalidRequest s!"invalid comfyui base_url: {outside.parseError}")

/-- What precedes the post of a ComfyUI prompt: its graph. -/
def prepareComfyui (cfg : ImageConfig) (outside : Outside) (baseUrl : String)
    (workflow : ComfyUiWorkflow) (request : ImageGenerationRequest) : Except WorkloadError Json :=
  validateComfyuiRequest request >>= fun _ =>
  bindComfyuiImageInputs workflow request >>= fun graph =>
  comfyEndpoint outside baseUrl "prompt" >>= fun url =>
  guardProviderUrl cfg outside (outside.asStr url) >>= fun _ =>
  (outside.client.mapError fun e => WorkloadError.internal s!"build comfyui client: {e}").map
    fun _ => graph

/-- Who asks. -/
structure Asker where
  tenant : Option String
  project : Option String := none

/-- What a call has submitted, each with its account if there is one, what it has recorded, and what
it returns, unless it is dropped before it ends. -/
structure Created where
  submissions : List (String × Option String)
  usages : List UsageRecord
  result : Option (Except WorkloadError JobRecord)

/-- A call that ends before it submits anything. -/
def Created.refused (e : WorkloadError) : Created := ⟨[], [], some (.error e)⟩

/-- A section that ends the job is behind it. -/
def Runner.isOver : Runner → Bool
  | .removing _ | .removingCancelled | .finished _ => true
  | .submitting _ | .guarding _ | .checking _ | .polling _ | .capturing _ => false

/-- What a section of the job records: at its end, with the artifacts if it has succeeded. -/
def FalCall.recorded (unitPrice : String → String → Option UnitPrice) (c : FalCall) (w : World) :
    Input → List UsageRecord
  | .run input now =>
    let next := (c.step w.store now w.runner input).2
    if !w.runner.isOver && next.isOver then
      match next with
      | .removing (.ok job) => [c.usage unitPrice (some job.artifacts)]
      | _ => [c.usage unitPrice none]
    else []
  | _ => []

/-- One section with what it records. -/
def FalCall.metered (unitPrice : String → String → Option UnitPrice) (c : FalCall) (w : World)
    (i : Input) : World × List UsageRecord :=
  (World.step c w i, c.recorded unitPrice w i)

/-- What a finished run has made. -/
def Runner.result : Runner → Option (Except WorkloadError JobRecord)
  | .finished result => some result
  | _ => none

/-- A job in the queue of fal. -/
def createFalImageJob (cfg : ImageConfig) (resolver : CredentialResolver) (outside : Outside)
    (unitPrice : String → String → Option UnitPrice) (provider : ProviderConfig)
    (baseUrl model : String) (request : ImageGenerationRequest) (asker : Asker) (jobId : String)
    (now : ℕ) (store : WorkloadStore) (inputs : List Input) : Created :=
  match prepareFal cfg resolver outside provider.id baseUrl model request now with
  | .error e => .refused e
  | .ok accountId =>
    let call : FalCall :=
      { jobId := jobId
        target := request.model
        providerId := provider.id
        model := model
        accountId := accountId
        tenant := asker.tenant
        project := asker.project
        startedAtMs := now }
    let run := Machine.run (call.metered unitPrice) (World.start call store) inputs
    ⟨[(provider.id, some accountId)], run.2, run.1.runner.result⟩

/-! ### ComfyUI and the mock -/

/-- `record_unpriced_image_usage`. -/
def unpricedImageUsage (job : JobRecord) (providerId : String) : UsageRecord where
  requestId := job.id
  providerId := providerId
  model := job.target
  tenant := job.tenant
  usage := default
  costMicros := none
  cacheSavingsMicros := none

/-- What a dispatch that was posted brings back. -/
structure ComfyParts where
  jobId : String
  createdAtMs : ℕ
  updatedAtMs : ℕ
  artifacts : List ArtifactRecord
  events : List JobEvent

/-- The job of a workflow that has run. -/
def comfyuiJob (provider : ProviderConfig) (workflow : ComfyUiWorkflow)
    (request : ImageGenerationRequest) (asker : Asker) (parts : ComfyParts) : JobRecord where
  id := parts.jobId
  kind := .imageGeneration
  status := .succeeded
  target := request.model
  tenant := asker.tenant
  project := asker.project
  createdAtMs := parts.createdAtMs
  updatedAtMs := parts.updatedAtMs
  routeDecision :=
    { requestId := parts.jobId
      strategy := "workload/comfyui"
      selected := some { targetId := request.model }
      reason := ["workload=image_generation", s!"provider={provider.id}",
        s!"workflow={workflow.id}", "adapter=comfyui"] }
  artifacts := parts.artifacts
  events := parts.events
  promptStored := false

/-- `comfyui_dispatch_once`: whether the prompt was posted, and what came of it. -/
def comfyuiDispatchOnce (cfg : ImageConfig) (outside : Outside) (provider : ProviderConfig)
    (baseUrl : String) (workflow : ComfyUiWorkflow) (request : ImageGenerationRequest)
    (asker : Asker) (answer : Except WorkloadError ComfyParts) :
    Bool × Except WorkloadError JobRecord :=
  match prepareComfyui cfg outside baseUrl workflow request with
  | .error e => (false, .error e)
  | .ok _ => (true, answer.map (comfyuiJob provider workflow request asker))

/-- The submissions of some dispatches. -/
def posted (provider : ProviderConfig) (dispatches : List (Bool × Except WorkloadError JobRecord)) :
    List (String × Option String) :=
  dispatches.filterMap fun d => if d.1 then some (provider.id, none) else none

/-- One run of a workflow. -/
def createComfyuiImageJob (cfg : ImageConfig) (outside : Outside) (provider : ProviderConfig)
    (baseUrl : String) (workflow : ComfyUiWorkflow) (request : ImageGenerationRequest)
    (asker : Asker) (answer : Except WorkloadError ComfyParts) : Created :=
  let d := comfyuiDispatchOnce cfg outside provider baseUrl workflow request asker answer
  { submissions := posted provider [d]
    usages := d.2.toOption.toList.map fun job => unpricedImageUsage job provider.id
    result := some d.2 }

/-- How a managed lane fails a job. -/
inductive LaneFailure where
  | queued
  | bootTimeout (wakePath : String) (elapsedMs : ℕ)
  | wakeFailed (error : String)
  | retriesExhausted (budget : ℕ) (lastError : String)
  | dispatch (error : WorkloadError)

/-- What the lane of a ComfyUI provider does with a job: the answers to the dispatches it makes, and
the failure that it ends with, if any. -/
structure LaneRun where
  answers : List (Except WorkloadError ComfyParts)
  failure : Option LaneFailure
  jobId : String
  now : ℕ

/-- The job that waits for a lane without a wake command. -/
def queuedComfyJob (provider : ProviderConfig) (request : ImageGenerationRequest) (asker : Asker)
    (run : LaneRun) : JobRecord where
  id := run.jobId
  kind := .imageGeneration
  status := .queued
  target := request.model
  tenant := asker.tenant
  project := asker.project
  createdAtMs := run.now
  updatedAtMs := run.now
  routeDecision :=
    { requestId := run.jobId
      strategy := "workload/comfyui"
      selected := some { targetId := request.model }
      reason := ["workload=image_generation", s!"provider={provider.id}", "state=queued"] }
  artifacts := []
  events :=
    [{ event := "accepted"
       status := .accepted
       createdAtMs := run.now
       detail := OrdMap.ofList
         [("model", request.model), ("provider", provider.id), ("prompt_stored", "false")] },
      { event := "queued"
        status := .queued
        createdAtMs := run.now
        detail := OrdMap.ofList
          [("reason", "wake_unconfigured"),
            ("detail", "local executor wake command is unconfigured; awaiting operator wiring")] }]
  promptStored := false

/-- What a run in a lane comes to; `last` is its last dispatch. -/
def laneResult (provider : ProviderConfig) (request : ImageGenerationRequest) (asker : Asker)
    (run : LaneRun) (last : Option (Except WorkloadError JobRecord)) :
    Option (Except WorkloadError JobRecord) :=
  match run.failure with
  | none => last
  | some .queued => some (.ok (queuedComfyJob provider request asker run))
  | some (.bootTimeout wakePath elapsedMs) =>
    some (.error (.upstream
      (s!"local executor `{provider.id}` did not reach health after wake " ++
        s!"`{wakePath}` in {elapsedMs}ms")))
  | some (.wakeFailed error) =>
    some (.error (.upstream s!"local executor `{provider.id}` wake command failed: {error}"))
  | some (.retriesExhausted budget lastError) =>
    some (.error (.upstream
      s!"local executor `{provider.id}` self-heal budget {budget} exhausted: {lastError}"))
  | some (.dispatch error) => some (.error error)

/-- A workflow run by the executor. -/
def createComfyuiImageJobManaged (cfg : ImageConfig) (outside : Outside)
    (provider : ProviderConfig) (baseUrl : String) (workflow : ComfyUiWorkflow)
    (request : ImageGenerationRequest) (asker : Asker) (run : LaneRun) : Created :=
  match validateComfyuiRequest request with
  | .error e => .refused e
  | .ok _ =>
    let dispatches := run.answers.map
      (comfyuiDispatchOnce cfg outside provider baseUrl workflow request asker)
    let result := laneResult provider request asker run (dispatches.getLast?.map Prod.snd)
    { submissions := posted provider dispatches
      usages := ((result.bind Except.toOption).filter fun job => job.status = .succeeded).toList.map
        fun job => unpricedImageUsage job provider.id
      result := result }

/-- The job of a mock image; its ids, its time and the hash of its bytes are arguments. -/
structure MockParts where
  jobId : String
  artifactId : String
  now : ℕ
  sha256 : String
  bytes : ℕ

/-- The job of a mock image. -/
def mockImageJob (request : ImageGenerationRequest) (asker : Asker) (parts : MockParts) :
    JobRecord :=
  let size := (parseSize request.size).getD (1, 1)
  { id := parts.jobId
    kind := .imageGeneration
    status := .succeeded
    target := request.model
    tenant := asker.tenant
    project := asker.project
    createdAtMs := parts.now
    updatedAtMs := parts.now
    routeDecision :=
      { requestId := parts.jobId
        strategy := "workload/mock_image"
        selected := some { targetId := request.model }
        reason := ["workload=image_generation", "workflow=mock-image", "adapter=mock"] }
    artifacts :=
      [{ artifactId := parts.artifactId
         jobId := parts.jobId
         kind := .image
         mediaType := "image/png"
         bytes := parts.bytes
         sha256 := parts.sha256
         storageRef := s!"memory://{parts.artifactId}"
         width := some size.1
         height := some size.2
         durationMs := none
         fps := none
         createdAtMs := parts.now
         retention := "process_memory"
         provenance := OrdMap.ofList
           [("provider", "switchback-mock"), ("model", request.model),
             ("workflow", "mock-image")] }]
    events :=
      [{ event := "accepted"
         status := .accepted
         createdAtMs := parts.now
         detail := OrdMap.ofList [("model", request.model), ("prompt_stored", "false")] },
        { event := "artifact_ready"
          status := .artifactReady
          createdAtMs := parts.now
          detail := OrdMap.ofList
            [("artifact_id", parts.artifactId), ("media_type", "image/png")] },
        { event := "succeeded", status := .succeeded, createdAtMs := parts.now,
          detail := OrdMap.empty }]
    promptStored := false }

/-- A mock image, drawn at once. -/
def createMockImageJob (request : ImageGenerationRequest) (asker : Asker) (parts : MockParts) :
    Created :=
  match validateOne request "mock image workflow supports n=1 in this slice" with
  | .error e => .refused e
  | .ok _ =>
    let job := mockImageJob request asker parts
    ⟨[], [unpricedImageUsage job "switchback-mock"], some (.ok job)⟩

/-- What happens once a request has been submitted. -/
structure Later where
  jobId : String
  store : WorkloadStore
  inputs : List Input
  answer : Except WorkloadError ComfyParts
  lane : LaneRun
  mock : MockParts

/-- The handler's dispatch on the target. -/
def createImageJob (cfg : ImageConfig) (resolver : CredentialResolver) (outside : Outside)
    (unitPrice : String → String → Option UnitPrice) (executor : String → Bool)
    (request : ImageGenerationRequest) (asker : Asker) (now : ℕ) (later : Later) : Created :=
  match resolveFalModel cfg request.model with
  | some (provider, baseUrl, model) =>
    createFalImageJob cfg resolver outside unitPrice provider baseUrl model request asker
      later.jobId now later.store later.inputs
  | none =>
    match resolveComfyuiWorkflow cfg request.model with
    | some (provider, baseUrl, workflow) =>
      if executor provider.id then
        createComfyuiImageJobManaged cfg outside provider baseUrl workflow request asker later.lane
      else createComfyuiImageJob cfg outside provider baseUrl workflow request asker later.answer
    | none => createMockImageJob request asker later.mock

/-- The recorded spend of a scope has reached its cap. -/
def CapReached (l : UsageLedger) (fault : Option StoreError) (scope : SpendScope)
    (cap : Option F64) : Prop :=
  ∃ usd, cap = some usd ∧ Fp.le usd (UsageLedger.usd (Engine.scopeSpendMicros l fault scope)) = true

/-- The tenant may use the provider with the account, and no cap is reached. -/
structure Permitted (cfg : ImageConfig) (tenant : String) (l : UsageLedger)
    (fault : Option StoreError) (provider : String) (account : Option String) : Prop where
  providers : ∀ policy, cfg.tenant tenant = some policy →
    policy.allowedProviders = [] ∨ provider ∈ policy.allowedProviders
  accounts : ∀ policy a, cfg.tenant tenant = some policy → account = some a →
    policy.allowedAccounts = [] ∨ provider ++ "/" ++ a ∈ policy.allowedAccounts
  total : ¬ CapReached l fault .total cfg.budgetMaxUsd
  tenant : ¬ CapReached l fault (.tenant tenant) ((cfg.tenant tenant).bind TenantPolicy.budgetUsd)
  provider : ¬ CapReached l fault (.provider provider) (cfg.perProviderUsd.get provider)

/-- Every submission is permitted, and every record counts for the tenant and for the provider that
the request went to. -/
structure BindsPolicy (cfg : ImageConfig) (tenant : String) (l : UsageLedger)
    (fault : Option StoreError) (c : Created) : Prop where
  permitted : ∀ p a, (p, a) ∈ c.submissions → Permitted cfg tenant l fault p a
  attributed : ∀ u ∈ c.usages, u.tenant = some tenant ∧
    ∀ p a, (p, a) ∈ c.submissions → u.providerId = p

variable (unitPrice : String → String → Option UnitPrice)

theorem usage_attributed (c : FalCall) (artifacts : Option (List ArtifactRecord)) :
    (c.usage unitPrice artifacts).tenant = c.tenant ∧
      (c.usage unitPrice artifacts).providerId = "fal" :=
  ⟨rfl, rfl⟩

theorem mem_recorded {unitPrice : String → String → Option UnitPrice} {c : FalCall} {w : World}
    {i : Input} {u : UsageRecord} (h : u ∈ c.recorded unitPrice w i) :
    ∃ artifacts, u = c.usage unitPrice artifacts := by
  unfold FalCall.recorded at h
  split at h
  · dsimp only at h
    split_ifs at h
    · split at h
      · exact ⟨_, List.mem_singleton.1 h⟩
      · exact ⟨_, List.mem_singleton.1 h⟩
    · cases h
  · cases h

/-- **A fal job is recorded under the provider `fal`**, whatever its provider is called. -/
theorem recorded_attributed (c : FalCall) (w : World) (inputs : List Input) :
    ∀ u ∈ (Machine.run (c.metered unitPrice) w inputs).2,
      u.tenant = c.tenant ∧ u.providerId = "fal" := by
  have hstep : ∀ (w : World) (i : Input), True → True ∧
      ∀ u ∈ (c.metered unitPrice w i).2, u.tenant = c.tenant ∧ u.providerId = "fal" := by
    intro w i _
    refine ⟨trivial, fun u hu => ?_⟩
    obtain ⟨artifacts, rfl⟩ := mem_recorded hu
    exact usage_attributed unitPrice c artifacts
  exact (Machine.run_forall hstep trivial inputs).2

theorem recorded_failed (c : FalCall) (store : WorkloadStore) (e : WorkloadError) (now : ℕ) :
    (Machine.run (c.metered unitPrice) (World.start c store)
      [.run (.submitted (.error e)) now]).2 = [c.usage unitPrice none] := rfl

/-! ### When the policy binds -/

section Policy

variable {cfg : ImageConfig} {resolver : CredentialResolver} {outside : Outside}
  {unitPrice : String → String → Option UnitPrice} {request : ImageGenerationRequest}
  {tenant : String} {project : Option String} {now : ℕ} {l : UsageLedger}
  {fault : Option StoreError} {provider : ProviderConfig} {baseUrl : String}

theorem bindsPolicy_refused (e : WorkloadError) :
    BindsPolicy cfg tenant l fault (.refused e) :=
  ⟨fun _ _ h => (List.not_mem_nil h).elim, fun _ h => (List.not_mem_nil h).elim⟩

/-- A fal request keeps to the policy exactly when its submission is permitted and its provider has
the name that it is recorded under. -/
theorem fal_binds_iff {model : String} (jobId : String) (store : WorkloadStore) :
    (∀ inputs, BindsPolicy cfg tenant l fault
        (createFalImageJob cfg resolver outside unitPrice provider baseUrl model request
          ⟨some tenant, project⟩ jobId now store inputs)) ↔
      ∀ accountId, prepareFal cfg resolver outside provider.id baseUrl model request now =
          .ok accountId →
        Permitted cfg tenant l fault provider.id (some accountId) ∧ provider.id = "fal" := by
  unfold createFalImageJob
  cases hprepare : prepareFal cfg resolver outside provider.id baseUrl model request now with
  | error e => exact iff_of_true (fun _ => bindsPolicy_refused e) fun _ h => by cases h
  | ok accountId =>
    dsimp only
    constructor
    · intro h accountId' haccount
      obtain rfl := Except.ok.inj haccount
      have hfailed := h [.run (.submitted (.error (.internal ""))) 0]
      refine ⟨hfailed.permitted _ _ (List.mem_singleton.2 rfl), ?_⟩
      rw [recorded_failed] at hfailed
      have hname := (hfailed.attributed _ (List.mem_singleton.2 rfl)).2 provider.id (some accountId)
        (List.mem_singleton.2 rfl)
      exact hname.symm
    · intro h inputs
      obtain ⟨hpermitted, hname⟩ := h accountId rfl
      constructor
      · intro p a hmem
        obtain ⟨rfl, rfl⟩ := Prod.mk.inj (List.mem_singleton.1 hmem)
        exact hpermitted
      · intro u hu
        obtain ⟨htenant, hprovider⟩ := recorded_attributed unitPrice _ _ inputs u hu
        refine ⟨htenant, fun p a hmem => ?_⟩
        obtain ⟨rfl, -⟩ := Prod.mk.inj (List.mem_singleton.1 hmem)
        rw [hprovider, hname]

theorem mem_posted {dispatches : List (Bool × Except WorkloadError JobRecord)} {p : String}
    {a : Option String} (h : (p, a) ∈ posted provider dispatches) :
    p = provider.id ∧ a = none ∧ ∃ d ∈ dispatches, d.1 = true := by
  obtain ⟨d, hd, hsome⟩ := List.mem_filterMap.1 h
  split_ifs at hsome with hposted
  obtain ⟨rfl, rfl⟩ := Prod.mk.inj (Option.some.inj hsome)
  exact ⟨rfl, rfl, d, hd, hposted⟩

variable {workflow : ComfyUiWorkflow}

variable {asker : Asker}

theorem posted_prepared {answer : Except WorkloadError ComfyParts}
    (h : (comfyuiDispatchOnce cfg outside provider baseUrl workflow request asker answer).1 =
      true) : ∃ graph, prepareComfyui cfg outside baseUrl workflow request = .ok graph := by
  unfold comfyuiDispatchOnce at h
  cases hprepare : prepareComfyui cfg outside baseUrl workflow request with
  | error e =>
    rw [hprepare] at h
    cases h
  | ok graph => exact ⟨graph, rfl⟩

theorem dispatched_tenant {answer : Except WorkloadError ComfyParts} {job : JobRecord}
    (h : (comfyuiDispatchOnce cfg outside provider baseUrl workflow request asker answer).2 =
      .ok job) : job.tenant = asker.tenant := by
  unfold comfyuiDispatchOnce at h
  cases hprepare : prepareComfyui cfg outside baseUrl workflow request with
  | error e =>
    rw [hprepare] at h
    cases h
  | ok graph =>
    rw [hprepare] at h
    obtain ⟨parts, -, rfl⟩ := map_eq_ok_iff.1 h
    rfl

theorem comfyui_binds (hasker : asker.tenant = some tenant)
    {dispatches : List (Bool × Except WorkloadError JobRecord)}
    (hpermitted : (∃ d ∈ dispatches, d.1 = true) → Permitted cfg tenant l fault provider.id none)
    {jobs : List JobRecord} (hjobs : ∀ job ∈ jobs, job.tenant = asker.tenant)
    (result : Option (Except WorkloadError JobRecord)) :
    BindsPolicy cfg tenant l fault
      ⟨posted provider dispatches, jobs.map fun job => unpricedImageUsage job provider.id,
        result⟩ := by
  constructor
  · intro p a hmem
    obtain ⟨rfl, rfl, hposted⟩ := mem_posted hmem
    exact hpermitted hposted
  · intro u hu
    obtain ⟨job, hjob, rfl⟩ := List.mem_map.1 hu
    refine ⟨(hjobs job hjob).trans hasker, fun p a hmem => ?_⟩
    exact (mem_posted hmem).1.symm

theorem comfyui_binds_iff :
    (∀ answer, BindsPolicy cfg tenant l fault
        (createComfyuiImageJob cfg outside provider baseUrl workflow request
          ⟨some tenant, project⟩ answer)) ↔
      ∀ graph, prepareComfyui cfg outside baseUrl workflow request = .ok graph →
        Permitted cfg tenant l fault provider.id none := by
  constructor
  · intro h graph hgraph
    refine (h (.error (.internal ""))).permitted provider.id none ?_
    simp [createComfyuiImageJob, comfyuiDispatchOnce, hgraph, posted]
  · intro h answer
    have hasker : (Asker.mk (some tenant) project).tenant = some tenant := rfl
    apply comfyui_binds hasker
    · rintro ⟨d, hd, hposted⟩
      obtain rfl := List.mem_singleton.1 hd
      obtain ⟨graph, hgraph⟩ := posted_prepared hposted
      exact h graph hgraph
    · intro job hjob
      rw [Option.mem_toList] at hjob
      exact dispatched_tenant (toOption_eq_some_iff.1 hjob)

theorem laneResult_tenant {run : LaneRun}
    {last : Option (Except WorkloadError JobRecord)} {job : JobRecord}
    (hlast : ∀ job, last = some (.ok job) → job.tenant = asker.tenant)
    (h : laneResult provider request asker run last = some (.ok job)) :
    job.tenant = asker.tenant := by
  unfold laneResult at h
  split at h
  · exact hlast job h
  · obtain rfl := Except.ok.inj (Option.some.inj h)
    rfl
  all_goals cases h

theorem managed_binds_iff :
    (∀ run, BindsPolicy cfg tenant l fault
        (createComfyuiImageJobManaged cfg outside provider baseUrl workflow request
          ⟨some tenant, project⟩ run)) ↔
      ∀ graph, prepareComfyui cfg outside baseUrl workflow request = .ok graph →
        Permitted cfg tenant l fault provider.id none := by
  constructor
  · intro h graph hgraph
    obtain ⟨_, hvalid, -⟩ := bind_eq_ok_iff.1 hgraph
    refine (h ⟨[.error (.internal "")], none, "", 0⟩).permitted provider.id none ?_
    simp [createComfyuiImageJobManaged, hvalid, comfyuiDispatchOnce, hgraph, posted]
  · intro h run
    unfold createComfyuiImageJobManaged
    cases hvalid : validateComfyuiRequest request with
    | error e => exact bindsPolicy_refused e
    | ok _ =>
      have hasker : (Asker.mk (some tenant) project).tenant = some tenant := rfl
      apply comfyui_binds hasker
      · rintro ⟨d, hd, hposted⟩
        obtain ⟨answer, -, rfl⟩ := List.mem_map.1 hd
        obtain ⟨graph, hgraph⟩ := posted_prepared hposted
        exact h graph hgraph
      · intro job hjob
        rw [Option.mem_toList, Option.filter_eq_some_iff] at hjob
        obtain ⟨result, hresult, hok⟩ := Option.bind_eq_some_iff.1 hjob.1
        rw [toOption_eq_some_iff.1 hok] at hresult
        refine laneResult_tenant (fun job hlast => ?_) hresult
        obtain ⟨d, hd, hdjob⟩ := Option.map_eq_some_iff.1 hlast
        obtain ⟨answer, -, rfl⟩ := List.mem_map.1 (List.mem_of_getLast? hd)
        exact dispatched_tenant hdjob

theorem mock_binds (parts : MockParts) :
    BindsPolicy cfg tenant l fault (createMockImageJob request ⟨some tenant, project⟩ parts) := by
  unfold createMockImageJob
  split
  · exact bindsPolicy_refused _
  · refine ⟨fun p a h => (List.not_mem_nil h).elim, fun u hu => ?_⟩
    obtain rfl := List.mem_singleton.1 hu
    exact ⟨rfl, fun p a h => (List.not_mem_nil h).elim⟩

end Policy

/-- A request for a fal provider that reaches its commit point is permitted and its provider is
called `fal`; one for a ComfyUI provider that reaches its post is permitted. -/
structure Bound (cfg : ImageConfig) (resolver : CredentialResolver) (outside : Outside)
    (request : ImageGenerationRequest) (tenant : String) (now : ℕ) (l : UsageLedger)
    (fault : Option StoreError) : Prop where
  fal : ∀ provider baseUrl model accountId,
    resolveFalModel cfg request.model = some (provider, baseUrl, model) →
      prepareFal cfg resolver outside provider.id baseUrl model request now = .ok accountId →
        Permitted cfg tenant l fault provider.id (some accountId) ∧ provider.id = "fal"
  comfyUi : resolveFalModel cfg request.model = none → ∀ provider baseUrl workflow graph,
    resolveComfyuiWorkflow cfg request.model = some (provider, baseUrl, workflow) →
      prepareComfyui cfg outside baseUrl workflow request = .ok graph →
        Permitted cfg tenant l fault provider.id none

/-- Nothing that matters to a request of another kind. -/
def Later.of (inputs : List Input) (answer : Except WorkloadError ComfyParts) (lane : LaneRun) :
    Later where
  jobId := ""
  store := {}
  inputs := inputs
  answer := answer
  lane := lane
  mock := ⟨"", "", 0, "", 0⟩

/-- **Tenant policy and budgets bind an image request**, whatever happens after its submission,
exactly when it would be permitted where it is submitted and, for fal, its provider has the name
that its usage is recorded under. -/
theorem image_policy_iff (cfg : ImageConfig) (resolver : CredentialResolver) (outside : Outside)
    (unitPrice : String → String → Option UnitPrice) (executor : String → Bool)
    (request : ImageGenerationRequest) (tenant : String) (project : Option String) (now : ℕ)
    (l : UsageLedger) (fault : Option StoreError) :
    (∀ later, BindsPolicy cfg tenant l fault
        (createImageJob cfg resolver outside unitPrice executor request ⟨some tenant, project⟩ now
          later)) ↔
      Bound cfg resolver outside request tenant now l fault := by
  unfold createImageJob
  cases hfal : resolveFalModel cfg request.model with
  | some target =>
    obtain ⟨provider, baseUrl, model⟩ := target
    constructor
    · intro h
      have hbinds := (fal_binds_iff "" {}).1 fun inputs =>
        h (.of inputs (.error (.internal "")) ⟨[], none, "", 0⟩)
      refine ⟨fun provider' baseUrl' model' accountId heq => ?_, fun hnone => ?_⟩
      · rw [hfal] at heq
        cases heq
        exact hbinds accountId
      · rw [hfal] at hnone
        cases hnone
    · intro h later
      exact (fal_binds_iff later.jobId later.store).2
        (fun accountId => h.fal provider baseUrl model accountId hfal) later.inputs
  | none =>
    cases hcomfy : resolveComfyuiWorkflow cfg request.model with
    | none =>
      refine iff_of_true (fun later => mock_binds later.mock) ⟨fun _ _ _ _ heq => ?_, ?_⟩
      · rw [hfal] at heq
        cases heq
      · intro _ _ _ _ _ heq
        rw [hcomfy] at heq
        cases heq
    | some target =>
      obtain ⟨provider, baseUrl, workflow⟩ := target
      have hbound : Bound cfg resolver outside request tenant now l fault ↔
          ∀ graph, prepareComfyui cfg outside baseUrl workflow request = .ok graph →
            Permitted cfg tenant l fault provider.id none := by
        constructor
        · intro h graph hgraph
          exact h.comfyUi hfal provider baseUrl workflow graph hcomfy hgraph
        · intro h
          refine ⟨fun _ _ _ _ heq => ?_, fun _ provider' baseUrl' workflow' graph heq => ?_⟩
          · rw [hfal] at heq
            cases heq
          · rw [hcomfy] at heq
            cases heq
            exact h graph
      rw [hbound]
      by_cases hmanaged : executor provider.id = true
      · simp only [if_pos hmanaged]
        rw [← @managed_binds_iff cfg outside request tenant project l fault provider baseUrl
          workflow]
        exact ⟨fun h run => h (.of [] (.error (.internal "")) run), fun h later => h later.lane⟩
      · simp only [if_neg hmanaged]
        rw [← @comfyui_binds_iff cfg outside request tenant project l fault provider baseUrl
          workflow]
        exact ⟨fun h answer => h (.of [] answer ⟨[], none, "", 0⟩), fun h later => h later.answer⟩

/-- A fal provider and a mock, and a tenant that may use the mock only. -/
def strictConfig : ImageConfig where
  providers := [{ id := "fal", kind := .fal "https://queue.fal.run" },
    { id := "mock", kind := .other }]
  tenants := [{ id := "acme", allowedProviders := ["mock"] }]

def strictResolver : CredentialResolver :=
  .new (OrdMap.ofList [("fal", { accounts := [{ id := "default", secret := "key" }] })]) {}

def openOutside : Outside where
  parser := nameParser
  asStr u := String.ofList u.scheme
  net := { parseUrl := fun _ => .error "", lookupHost := fun _ _ => .error "" }

def foxRequest : ImageGenerationRequest where
  model := "fal/fal-ai/flux"
  prompt := "a fox"

/-- The tenant's request is submitted to fal all the same. -/
theorem image_policy_ignored :
    ¬ ∀ (cfg : ImageConfig) (resolver : CredentialResolver) (outside : Outside)
      (unitPrice : String → String → Option UnitPrice) (executor : String → Bool)
      (request : ImageGenerationRequest) (tenant : String) (project : Option String) (now : ℕ)
      (l : UsageLedger) (fault : Option StoreError) (later : Later),
      BindsPolicy cfg tenant l fault
        (createImageJob cfg resolver outside unitPrice executor request ⟨some tenant, project⟩ now
          later) := by
  intro h
  have hbinds := h strictConfig strictResolver openOutside (fun _ _ => none) (fun _ => false)
    foxRequest "acme" none 0 .inMemory none (.of [] (.error (.internal "")) ⟨[], none, "", 0⟩)
  have hsubmitted : (createImageJob strictConfig strictResolver openOutside (fun _ _ => none)
      (fun _ => false) foxRequest ⟨some "acme", none⟩ 0
      (.of [] (.error (.internal "")) ⟨[], none, "", 0⟩)).submissions =
        [("fal", some "default")] := by
    decide +kernel
  have hpermitted := hbinds.permitted "fal" (some "default") (by rw [hsubmitted]; simp)
  rcases hpermitted.providers { id := "acme", allowedProviders := ["mock"] } rfl with hnil | hmem
  · cases hnil
  · simp at hmem

end Workloads

end Switchback
