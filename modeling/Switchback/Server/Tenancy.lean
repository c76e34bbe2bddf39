import Switchback.Runtime.Admission
import Switchback.Server.FalJobs

/-!
# What an operator sees

The read endpoints of the gateway, and the one that cancels a job.  A role gate on the method and
the path lets a principal through; a tenant filter, where a handler has one, keeps the records of
other tenants out of the answer.
-/

namespace Switchback

namespace Tenancy

open Lib Workloads

/-! ### The gate -/

/-- What a key may do. -/
inductive ApiKeyRole where
  | client
  | operator
  | admin
  deriving DecidableEq

/-- The authenticated caller. -/
structure Principal where
  tenant : Option String
  project : Option String
  role : ApiKeyRole

/-- The gate lets an administrator do everything. -/
def Principal.isAdmin (p : Principal) : Bool := p.role = .admin

/-- The gate lets these two read. -/
def Principal.isOperatorOrAdmin (p : Principal) : Bool := p.role = .operator ∨ p.role = .admin

/-- The tenant that an answer is restricted to. -/
def scopedTenant (p : Principal) : Option String := if p.isAdmin then none else p.tenant

/-- The methods that the gate tells apart. -/
inductive Method where
  | get
  | post
  | other
  deriving DecidableEq

/-- A path below a prefix. -/
def startsWith (path pre : String) : Bool := pre.toList.isPrefixOf path.toList

/-- A path with a suffix. -/
def endsWith (path suffix : String) : Bool := suffix.toList.isSuffixOf path.toList

/-- Client-facing endpoints that tenant keys may use. -/
def clientSurface (method : Method) (path : String) : Bool :=
  (method = .get ∧ path = "/v1/models") ∨
    (method = .post ∧ path ∈ ["/v1/chat/completions", "/v1/responses", "/v1/messages",
      "/v1/messages/count_tokens", "/v1/embeddings", "/v1/images/generations"])

/-- Read-only operator surfaces plus safe previews and validation. -/
def operatorSurface (method : Method) (path : String) : Bool :=
  clientSurface method path ∨
    (method = .get ∧ (startsWith path "/v1/" ∨ startsWith path "/cp/v1")) ∨
    (method = .post ∧ (path ∈ ["/cp/v1/route-preview", "/cp/v1/admission-preview"] ∨
      (startsWith path "/v1/jobs/" ∧ endsWith path "/cancel") ∨
      (startsWith path "/cp/v1/drafts/" ∧ endsWith path "/validate")))

/-- Is the request refused for the role of its principal? -/
def unauthorizedRole (p : Principal) (method : Method) (path : String) : Bool :=
  !(p.isAdmin || (p.isOperatorOrAdmin && operatorSurface method path) || clientSurface method path)

/-! ### The state -/

/-- A request trace, as the ring and the store keep it. -/
structure Trace extends Switchback.TraceRecord where
  revision : ℕ
  sessionId : Option String
  route : String
  providers : List String
  totalLatencyMs : ℕ
  costMicros : ℕ
  timestampUnix : ℕ
  deriving DecidableEq

/-- The bodies that the body log has of a request. -/
structure Evidence where
  requestRaw : List UInt8
  responseRaw : Option (List UInt8)

/-- What the handlers read: the rows of the trace table, oldest first, when a store is configured;
the ring, oldest first; the trace file; what the ledger answers; the usage rows, newest first, when
a store is configured; the jobs; and the body log, when there is one. -/
structure ServerState where
  traceStore : Option (List Trace)
  ring : List Trace
  traceFile : List Trace
  summary : LedgerSummary
  durability : UsageDurabilityHealth
  recentUsage : List UsageRecord
  usageStore : Option (List UsageRecord)
  workloads : WorkloadStore
  bodyLog : Option (OrdMap String Evidence)

/-- Which reads of the store fail. -/
structure Faults where
  query : Bool
  get : Bool
  usage : Bool

/-- The filters that a reader of traces may set. -/
structure TracesQuery where
  limit : Option ℕ := none
  tenant : Option String := none
  sessionId : Option String := none
  model : Option String := none
  status : Option ℕ := none
  sinceMs : Option ℤ := none

/-- How many sessions, of how many traces. -/
structure SessionsQuery where
  limit : Option ℕ
  traceLimit : Option ℕ

/-- A trace that a principal may see. -/
def visibleTo (p : Principal) (r : Trace) : Bool :=
  (scopedTenant p).all fun tenant => r.tenant = some tenant

/-! ### Traces -/

/-- The `WHERE` clause of `query_traces`. -/
def queryMatches (q : TracesQuery) (r : Trace) : Bool :=
  q.tenant.all (fun tenant => r.tenant = some tenant) &&
    q.sessionId.all (fun id => r.sessionId = some id) &&
    q.model.all (fun model => r.inboundModel = model) &&
    q.status.all (fun status => r.finalStatus = status) &&
    q.sinceMs.all fun ms => ms ≤ ((r.timestampUnix * 1000 : ℕ) : ℤ)

/-- `query_traces` of the store: newest first, the later row first among equals; at least one row is
asked for. -/
def queryTraces (rows : List Trace) (q : TracesQuery) (limit : ℕ) : List Trace :=
  ((rows.filter (queryMatches q)).reverse.insertionSort
    fun a b => b.timestampUnix ≤ a.timestampUnix).take (min (max limit 1) 5000)

/-- The query for the store; the scope of the principal goes before what it asked for. -/
def storeTraceQuery (p : Principal) (q : TracesQuery) (limit : ℕ) : TracesQuery where
  limit := some limit
  tenant := (scopedTenant p).orElse fun _ => q.tenant.filter (· ≠ "")
  sessionId := q.sessionId.filter (· ≠ "")
  model := q.model.filter (· ≠ "")
  status := q.status
  sinceMs := q.sinceMs

/-- The filters, on an entry of the ring. -/
def memoryTraceMatches (p : Principal) (q : TracesQuery) (r : Trace) : Bool :=
  visibleTo p r &&
    (q.tenant.filter fun _ => p.isAdmin).all (fun tenant => r.tenant = some tenant) &&
    q.sessionId.all (fun id => r.sessionId = some id) &&
    q.model.all (fun model => r.inboundModel = model) &&
    q.status.all (fun status => r.finalStatus = status) &&
    q.sinceMs.all fun ms => ms ≤ ((r.timestampUnix * 1000 : ℕ) : ℤ)

/-- `TraceLog::recent`. -/
def recentTraces (ring : List Trace) (limit : ℕ) : List Trace := ring.reverse.take limit

/-- The newest entries of the ring, and then those that match. -/
def filteredMemoryTraces (s : ServerState) (p : Principal) (q : TracesQuery) (limit : ℕ) :
    List Trace :=
  (recentTraces s.ring limit).filter (memoryTraceMatches p q)

/-- The rows of the store, unless there is none or it fails. -/
def storedTraces (s : ServerState) (faults : Faults) (p : Principal) (q : TracesQuery)
    (limit : ℕ) : Option (List Trace) :=
  if faults.query then none
  else s.traceStore.map fun rows => queryTraces rows (storeTraceQuery p q limit) limit

/-- `get_trace` of the store, unless there is none or it fails. -/
def storedTrace (s : ServerState) (faults : Faults) (id : String) : Option Trace :=
  if faults.get then none else s.traceStore.bind fun rows => rows.find? (·.requestId = id)

/-- `TraceLog::get`: the newest match. -/
def ringTrace (s : ServerState) (id : String) : Option Trace :=
  s.ring.reverse.find? (·.requestId = id)

/-- `trace_values_for_query`: the traces to show, and the rows of the store among them. -/
def traceValuesForQuery (s : ServerState) (faults : Faults) (p : Principal) (q : TracesQuery)
    (limit : ℕ) : List Trace × List Trace :=
  match storedTraces s faults p q limit with
  | some records => (records, records)
  | none => (filteredMemoryTraces s p q limit, [])

/-! ### Sessions -/

/-- `SessionRollupBuilder`, kept as the traces it has taken.  What an answer shows of it are folds
over them. -/
structure SessionRollup where
  sessionId : String
  records : List Trace

namespace SessionRollup

/-- How many traces there are. -/
def requestCount (r : SessionRollup) : ℕ := r.records.length

/-- The last of the traces that are as late as any before them. -/
def last (r : SessionRollup) : Option Trace :=
  r.records.foldl (fun last t =>
    if (last.all fun l => l.timestampUnix ≤ t.timestampUnix) then some t else last) none

/-- When the last of them was. -/
def lastTimestampUnix (r : SessionRollup) : ℕ := (r.last.map (·.timestampUnix)).getD 0

end SessionRollup

/-- `add_trace_event_to_sessions`: the sessions, and the number of traces without one. -/
def addToSessions (acc : OrdMap String (List Trace) × ℕ) (r : Trace) :
    OrdMap String (List Trace) × ℕ :=
  match r.sessionId.filter (· ≠ "") with
  | none => (acc.1, acc.2 + 1)
  | some id => (acc.1.update id [] (· ++ [r]), acc.2)

/-- The sessions of a list of traces, and how many have none. -/
def sessionsOf (records : List Trace) : OrdMap String (List Trace) × ℕ :=
  records.foldl addToSessions (OrdMap.empty, 0)

/-- The order of the sessions in an answer: the latest first, then by id. -/
def sessionBefore (a b : SessionRollup) : Prop :=
  b.lastTimestampUnix < a.lastTimestampUnix ∨
    (a.lastTimestampUnix = b.lastTimestampUnix ∧ a.sessionId ≤ b.sessionId)

instance : DecidableRel sessionBefore := fun _ _ => inferInstanceAs (Decidable (_ ∨ _))

/-- Where an answer was read. -/
inductive Source where
  | stateStore
  | recentTraceRing

/-- The answer of `usage`. -/
structure UsageView where
  requests : ℕ
  totalCostMicros : ℕ
  totalCacheSavingsMicros : ℕ
  unknownCostRequests : ℕ
  byModel : OrdMap String (ℕ × ℕ)
  byProvider : OrdMap String (ℕ × ℕ)
  byTenant : OrdMap String (ℕ × ℕ)
  cacheSavingsByTenant : OrdMap String ℕ
  energyByTenant : OrdMap String EnergySummary
  scope : Option String
  durability : UsageDurabilityHealth
  recent : List UsageRecord

/-- `BodyAudit`, as far as it copies what was recorded. -/
structure BodyAudit where
  requestId : String
  trace : Option Trace
  evidence : Evidence

/-- What a handler answers. -/
inductive Response where
  | traces (records : List Trace) (source : Source)
  | trace (record : Trace)
  | sessions (items : List SessionRollup) (unsessionedCount : ℕ) (source : Source)
  | session (rollup : SessionRollup) (traces : List Trace) (source : Source)
  | usage (view : UsageView)
  | usageEvents (events : List UsageRecord) (error persistence : Option String)
  | jobs (jobs : List JobRecord)
  | job (job : JobRecord)
  | jobEvents (jobId : String) (events : List JobEvent)
  | artifact (artifact : StoredArtifact)
  | audit (audit : BodyAudit)
  | raw (audit : BodyAudit) (bytes : List UInt8)
  | error (status : ℕ) (message : String)

/-! ### The handlers -/

/-- `GET /v1/traces`. -/
def traces (s : ServerState) (faults : Faults) (p : Principal) (q : TracesQuery) : Response :=
  let limit := min (q.limit.getD 50) 1000
  match storedTraces s faults p q limit with
  | some records => .traces records .stateStore
  | none => .traces (filteredMemoryTraces s p q limit) .recentTraceRing

/-- `GET /v1/traces/{id}`; a trace of another tenant is not found. -/
def traceById (s : ServerState) (faults : Faults) (p : Principal) (id : String) : Response :=
  match (storedTrace s faults id).filter (visibleTo p) with
  | some record => .trace record
  | none =>
    match ringTrace s id with
    | some record => if visibleTo p record then .trace record else .error 404 s!"no trace `{id}`"
    | none => .error 404 s!"no trace `{id}`"

/-- `GET /v1/sessions`. -/
def sessions (s : ServerState) (faults : Faults) (p : Principal) (q : SessionsQuery) : Response :=
  let traceLimit := min (q.traceLimit.getD 1000) 5000
  let (records, source) :=
    match storedTraces s faults p {} traceLimit with
    | some records => (records, Source.stateStore)
    | none => (filteredMemoryTraces s p {} traceLimit, Source.recentTraceRing)
  let (sessions, unsessionedCount) := sessionsOf records
  let items := (sessions.entries.map fun e => SessionRollup.mk e.1 e.2).insertionSort sessionBefore
  .sessions (items.take (min (q.limit.getD 50) 1000)) unsessionedCount source

/-- The traces of one session: of the store, or of the ring where the store gives none. -/
def sessionRecords (s : ServerState) (faults : Faults) (p : Principal) (q : TracesQuery)
    (limit : ℕ) : List Trace :=
  let events := (traceValuesForQuery s faults p q limit).2
  if events = [] then filteredMemoryTraces s p q limit else events

/-- `GET /v1/sessions/{id}`. -/
def sessionById (s : ServerState) (faults : Faults) (p : Principal) (id : String)
    (q : SessionsQuery) : Response :=
  let limit := min (q.traceLimit.getD 100) 1000
  let query : TracesQuery := { limit := some limit, sessionId := some id }
  let rollup : SessionRollup := ⟨id, sessionRecords s faults p query limit⟩
  if rollup.requestCount = 0 then .error 404 s!"no session `{id}`"
  else
    .session rollup (traceValuesForQuery s faults p query limit).1
      (if s.traceStore.isSome then .stateStore else .recentTraceRing)

/-- The map with one entry. -/
def single {α : Type} (k : String) (a : α) : OrdMap String α := OrdMap.empty.insert k a

/-- `GET /v1/usage`; with a scope, the totals are those of the tenant. -/
def usage (s : ServerState) (p : Principal) : Response :=
  match scopedTenant p with
  | some tenant =>
    let recent := s.recentUsage.filter fun r => r.tenant = some tenant
    let total := (s.summary.byTenant.get tenant).getD (0, 0)
    let savings := (s.summary.cacheSavingsByTenant.get tenant).getD 0
    .usage
      { requests := total.1
        totalCostMicros := total.2
        totalCacheSavingsMicros := savings
        unknownCostRequests := recent.countP (·.costMicros.isNone)
        byModel := OrdMap.empty
        byProvider := OrdMap.empty
        byTenant := single tenant total
        cacheSavingsByTenant := single tenant savings
        energyByTenant := single tenant ((s.summary.energyByTenant.get tenant).getD {})
        scope := some tenant
        durability := s.durability
        recent := recent }
  | none =>
    .usage
      { requests := s.summary.requests
        totalCostMicros := s.summary.totalCostMicros
        totalCacheSavingsMicros := s.summary.totalCacheSavingsMicros
        unknownCostRequests := s.summary.unknownCostRequests
        byModel := s.summary.byModel
        byProvider := s.summary.byProvider
        byTenant := s.summary.byTenant
        cacheSavingsByTenant := s.summary.cacheSavingsByTenant
        energyByTenant := s.summary.energyByTenant
        scope := none
        durability := s.durability
        recent := s.recentUsage }

/-- `GET /v1/usage/events`. -/
def usageEvents (s : ServerState) (faults : Faults) (p : Principal) (error : String) : Response :=
  match s.usageStore with
  | some rows =>
    if faults.usage then .usageEvents [] (some error) none
    else
      .usageEvents
        ((rows.take 100).filter fun r =>
          (scopedTenant p).all fun tenant => r.tenant = some tenant) none none
  | none => .usageEvents [] none (some "disabled")

/-- `WorkloadStore::jobs`: by the time of creation. -/
def jobsOf (s : WorkloadStore) : List JobRecord :=
  (s.jobs.entries.map Prod.snd).insertionSort fun a b => a.createdAtMs ≤ b.createdAtMs

/-- `GET /v1/jobs`, which asks for no principal. -/
def jobs (s : ServerState) : Response := .jobs (jobsOf s.workloads)

/-- `GET /v1/jobs/{id}`, likewise. -/
def jobById (s : ServerState) (id : String) : Response :=
  match s.workloads.job id with
  | some job => .job job
  | none => .error 404 "job not found"

/-- `GET /v1/jobs/{id}/events`, likewise. -/
def jobEvents (s : ServerState) (id : String) : Response :=
  match s.workloads.job id with
  | some job => .jobEvents id job.events
  | none => .error 404 "job not found"

/-- `GET /v1/artifacts/{id}`, likewise. -/
def artifactById (s : ServerState) (id : String) : Response :=
  match s.workloads.artifacts.get id with
  | some artifact => .artifact artifact
  | none => .error 404 "artifact not found"

/-- The trace that a body audit shows: of the store, of the ring, or of the trace file, where the
last line counts. -/
def bodyTrace (s : ServerState) (faults : Faults) (id : String) : Option Trace :=
  ((storedTrace s faults id).or (ringTrace s id)).or
    (s.traceFile.reverse.find? (·.requestId = id))

/-- What the body log has of a request. -/
def bodyAuditForState (s : ServerState) (faults : Faults) (id : String) :
    Except String BodyAudit :=
  match s.bodyLog with
  | none =>
    .error "body log index does not exist; enable capture and record traffic first"
  | some log =>
    match log.get id with
    | none => .error s!"no body events found for request `{id}`"
    | some evidence => .ok ⟨id, bodyTrace s faults id, evidence⟩

/-- The audit of a request, for whoever asks. -/
def bodyAuditById (s : ServerState) (faults : Faults) (id : String) : Response :=
  match bodyAuditForState s faults id with
  | .ok audit => .audit audit
  | .error err => .error 404 s!"no body evidence for `{id}`: {err}"

/-- The body of a stage, for whoever asks from this machine. -/
def bodyRawById (s : ServerState) (faults : Faults) (loopback : Bool) (id stage : String) :
    Response :=
  if loopback = false then .error 403 "body evidence is loopback-only"
  else
    match bodyAuditForState s faults id with
    | .error err => .error 404 s!"no body evidence for `{id}`: {err}"
    | .ok audit =>
      if stage = "request" then .raw audit audit.evidence.requestRaw
      else if stage = "response" then
        match audit.evidence.responseRaw with
        | some raw => .raw audit raw
        | none => .error 404 "response body missing"
      else .error 400 "stage must be `request` or `response`"

/-- The requests of the read endpoints. -/
inductive Read where
  | traces (q : TracesQuery)
  | traceById (id : String)
  | sessions (q : SessionsQuery)
  | sessionById (id : String) (q : SessionsQuery)
  | usage
  | usageEvents (error : String)
  | jobs
  | jobById (id : String)
  | jobEvents (id : String)
  | artifactById (id : String)
  | bodyAuditById (id : String)
  | bodyRawById (loopback : Bool) (id stage : String)

/-- The handlers. -/
def read (s : ServerState) (faults : Faults) (p : Principal) : Read → Response
  | .traces q => traces s faults p q
  | .traceById id => traceById s faults p id
  | .sessions q => sessions s faults p q
  | .sessionById id q => sessionById s faults p id q
  | .usage => usage s p
  | .usageEvents error => usageEvents s faults p error
  | .jobs => jobs s
  | .jobById id => jobById s id
  | .jobEvents id => jobEvents s id
  | .artifactById id => artifactById s id
  | .bodyAuditById id => bodyAuditById s faults id
  | .bodyRawById loopback id stage => bodyRawById s faults loopback id stage

/-- `cancel_job`: it looks at the job in one section and marks it in another, when the store may
have moved on; `answer` is the outcome of the provider, credential and guard checks between. -/
def cancelJob (s later : WorkloadStore) (id : String) (answer : Except WorkloadError Unit)
    (now : ℕ) : WorkloadStore :=
  match startCancel s id with
  | .preparing control => (markCancelled later id control answer now).1
  | _ => later

/-- A request to one of the endpoints. -/
inductive Call where
  | read (r : Read) (faults : Faults)
  | cancelJob (id : String) (later : WorkloadStore) (answer : Except WorkloadError Unit) (now : ℕ)

/-! ### Whose records -/

/-- What an answer can contain. -/
inductive Disclosed where
  | trace (record : Trace)
  | usage (record : UsageRecord)
  | total (tenant : String)
  | job (job : JobRecord)
  | jobEvents (jobId : String) (events : List JobEvent)
  | artifact (artifact : StoredArtifact)
  | body (audit : BodyAudit)

/-- The tenant that a record, a job, an artifact or a body belongs to. -/
def owner (s : ServerState) : Disclosed → Option String
  | .trace r => r.tenant
  | .usage r => r.tenant
  | .total tenant => some tenant
  | .job job => job.tenant
  | .jobEvents jobId _ => (s.workloads.job jobId).bind (·.tenant)
  | .artifact a => (s.workloads.job a.record.jobId).bind (·.tenant)
  | .body audit => audit.trace.bind (·.tenant)

/-- What a view of the usage shows of tenants. -/
def UsageView.contents (v : UsageView) : List Disclosed :=
  (v.byTenant.keys ++ v.cacheSavingsByTenant.keys ++ v.energyByTenant.keys).map .total ++
    v.recent.map .usage

/-- The records in an answer. -/
def Response.contents : Response → List Disclosed
  | .traces records _ => records.map .trace
  | .trace record => [.trace record]
  | .sessions items _ _ => items.flatMap fun item => item.records.map .trace
  | .session rollup records _ => rollup.records.map .trace ++ records.map .trace
  | .usage view => view.contents
  | .usageEvents events _ _ => events.map .usage
  | .jobs all => all.map .job
  | .job one => [.job one]
  | .jobEvents jobId events => [.jobEvents jobId events]
  | .artifact a => [.artifact a]
  | .audit a => [.body a]
  | .raw a _ => [.body a]
  | .error _ _ => []

/-- Nobody else's. -/
def NotForeign (tenant : String) (owner : Option String) : Prop :=
  ∀ other, owner = some other → other = tenant

/-- The answer to a call shows nothing of another tenant, and the call changes no job of another
tenant. -/
def Confined (s : ServerState) (p : Principal) (tenant : String) : Call → Prop
  | .read r faults =>
    ∀ d ∈ (read s faults p r).contents, NotForeign tenant (owner s d)
  | .cancelJob id later answer now =>
    ∀ jobId job, later.job jobId = some job → ¬ NotForeign tenant job.tenant →
      (cancelJob s.workloads later id answer now).job jobId = some job

/-- The body log has the bodies of a request. -/
def ServerState.hasBodies (s : ServerState) (id : String) : Prop :=
  ∃ log evidence, s.bodyLog = some log ∧ log.get id = some evidence

/-- When nothing of another tenant is there to be shown or changed: always, where the handler
filters. -/
def OwnOnly (s : ServerState) (tenant : String) : Call → Prop
  | .read .jobs _ => ∀ id job, s.workloads.job id = some job → NotForeign tenant job.tenant
  | .read (.jobById id) _ | .read (.jobEvents id) _ =>
    ∀ job, s.workloads.job id = some job → NotForeign tenant job.tenant
  | .read (.artifactById id) _ =>
    ∀ a, s.workloads.artifacts.get id = some a →
      NotForeign tenant ((s.workloads.job a.record.jobId).bind (·.tenant))
  | .read (.bodyAuditById id) faults =>
    s.hasBodies id → NotForeign tenant ((bodyTrace s faults id).bind (·.tenant))
  | .read (.bodyRawById loopback id stage) faults =>
    loopback = true → (∃ log evidence, s.bodyLog = some log ∧ log.get id = some evidence ∧
        (stage = "request" ∨ (stage = "response" ∧ evidence.responseRaw.isSome))) →
      NotForeign tenant ((bodyTrace s faults id).bind (·.tenant))
  | .cancelJob id later answer _ =>
    (∃ control, startCancel s.workloads id = .preparing control) → answer.isOk →
      ∀ job, later.job id = some job → NotForeign tenant job.tenant
  | .read (.traces _) _ | .read (.traceById _) _ | .read (.sessions _) _
  | .read (.sessionById _ _) _ | .read .usage _ | .read (.usageEvents _) _ => True

/-! ### Handlers that filter -/

section Filters

variable {s : ServerState} {p : Principal} {tenant : String}

theorem scopedTenant_of (hrole : p.role ≠ .admin) (htenant : p.tenant = some tenant) :
    scopedTenant p = some tenant := by
  rw [scopedTenant, Principal.isAdmin, if_neg (by simpa using hrole), htenant]

theorem visibleTo_iff (hscope : scopedTenant p = some tenant) (r : Trace) :
    visibleTo p r = true ↔ r.tenant = some tenant := by
  rw [visibleTo, hscope]
  simp

theorem NotForeign.of_eq {owner : Option String} (h : owner = some tenant) :
    NotForeign tenant owner := by
  intro other hother
  exact Option.some.inj (hother.symm.trans h)

variable {limit : ℕ} {r : Trace} {q : TracesQuery} {faults : Faults} {id : String}

theorem tenant_of_mem_queryTraces {rows : List Trace}
    (hscope : q.tenant = some tenant) (h : r ∈ queryTraces rows q limit) :
    r.tenant = some tenant := by
  have hsorted := List.mem_of_mem_take h
  rw [(List.perm_insertionSort _ _).mem_iff, List.mem_reverse, List.mem_filter] at hsorted
  have hmatches := hsorted.2
  rw [queryMatches, hscope] at hmatches
  simp only [Option.all_some, Bool.and_eq_true, decide_eq_true_eq] at hmatches
  exact hmatches.1.1.1.1

theorem tenant_of_mem_storedTraces {records : List Trace} (hscope : scopedTenant p = some tenant)
    (h : storedTraces s faults p q limit = some records) (hr : r ∈ records) :
    r.tenant = some tenant := by
  rw [storedTraces] at h
  split_ifs at h
  obtain ⟨rows, -, rfl⟩ := Option.map_eq_some_iff.1 h
  refine tenant_of_mem_queryTraces ?_ hr
  rw [storeTraceQuery, hscope]
  rfl

theorem tenant_of_mem_filteredMemoryTraces (hscope : scopedTenant p = some tenant)
    (hr : r ∈ filteredMemoryTraces s p q limit) : r.tenant = some tenant := by
  have hmatches := (List.mem_filter.1 hr).2
  simp only [memoryTraceMatches, Bool.and_eq_true] at hmatches
  exact (visibleTo_iff hscope r).1 hmatches.1.1.1.1.1

theorem mem_of_sessionsOf {records : List Trace} {held : List Trace}
    (h : (sessionsOf records).1.get id = some held) : ∀ r ∈ held, r ∈ records := by
  induction records using List.reverseRecOn generalizing id held with
  | nil => cases h
  | append_singleton records r ih =>
    rw [sessionsOf, List.foldl_append, List.foldl_cons, List.foldl_nil, ← sessionsOf,
      addToSessions] at h
    split at h
    · intro t ht
      exact List.mem_append_left _ (ih h t ht)
    · rename_i key hkey
      rw [OrdMap.get_update] at h
      split_ifs at h with hid
      · cases h
        intro t ht
        rcases List.mem_append.1 ht with hold | hnew
        · cases hget : (sessionsOf records).1.get key with
          | none =>
            rw [hget] at hold
            cases hold
          | some before =>
            rw [hget] at hold
            exact List.mem_append_left _ (ih hget t hold)
        · exact List.mem_append_right _ hnew
      · intro t ht
        exact List.mem_append_left _ (ih h t ht)

theorem tenant_of_mem_traceValuesForQuery (hscope : scopedTenant p = some tenant)
    (hr : r ∈ (traceValuesForQuery s faults p q limit).1 ∨
      r ∈ (traceValuesForQuery s faults p q limit).2) : r.tenant = some tenant := by
  rw [traceValuesForQuery] at hr
  cases hstored : storedTraces s faults p q limit with
  | some records =>
    rw [hstored, or_self] at hr
    exact tenant_of_mem_storedTraces hscope hstored hr
  | none =>
    rw [hstored] at hr
    rcases hr with hr | hr
    · exact tenant_of_mem_filteredMemoryTraces hscope hr
    · cases hr

theorem tenant_of_mem_sessionRecords (hscope : scopedTenant p = some tenant)
    (hr : r ∈ sessionRecords s faults p q limit) : r.tenant = some tenant := by
  rw [sessionRecords] at hr
  split_ifs at hr
  · exact tenant_of_mem_filteredMemoryTraces hscope hr
  · exact tenant_of_mem_traceValuesForQuery hscope (Or.inr hr)

theorem own_traces (hscope : scopedTenant p = some tenant) :
    ∀ d ∈ (traces s faults p q).contents, NotForeign tenant (owner s d) := by
  intro d hd
  rw [traces] at hd
  cases hstored : storedTraces s faults p q (min (q.limit.getD 50) 1000) with
  | some records =>
    rw [hstored] at hd
    obtain ⟨r, hr, rfl⟩ := List.mem_map.1 hd
    exact .of_eq (tenant_of_mem_storedTraces hscope hstored hr)
  | none =>
    rw [hstored] at hd
    obtain ⟨r, hr, rfl⟩ := List.mem_map.1 hd
    exact .of_eq (tenant_of_mem_filteredMemoryTraces hscope hr)

theorem own_traceById (hscope : scopedTenant p = some tenant) :
    ∀ d ∈ (traceById s faults p id).contents, NotForeign tenant (owner s d) := by
  intro d hd
  have hshown : ∀ r, visibleTo p r = true → d ∈ (Response.trace r).contents →
      NotForeign tenant (owner s d) := by
    intro r hvisible hmem
    rw [Response.contents, List.mem_singleton] at hmem
    rw [hmem]
    exact .of_eq ((visibleTo_iff hscope r).1 hvisible)
  rw [traceById] at hd
  cases hstored : (storedTrace s faults id).filter (visibleTo p) with
  | some r =>
    rw [hstored] at hd
    exact hshown r (Option.filter_eq_some_iff.1 hstored).2 hd
  | none =>
    rw [hstored] at hd
    simp only at hd
    cases hring : ringTrace s id with
    | none =>
      rw [hring] at hd
      cases hd
    | some r =>
      rw [hring] at hd
      simp only at hd
      split_ifs at hd with hvisible
      · exact hshown r hvisible hd
      · cases hd

theorem own_sessions {q : SessionsQuery} (hscope : scopedTenant p = some tenant) :
    ∀ d ∈ (sessions s faults p q).contents, NotForeign tenant (owner s d) := by
  have hrolled : ∀ records : List Trace, (∀ r ∈ records, r.tenant = some tenant) →
      ∀ e ∈ (sessionsOf records).1.entries, ∀ r ∈ e.2, r.tenant = some tenant := by
    rintro records hown ⟨id, held⟩ he r hr
    exact hown r (mem_of_sessionsOf (OrdMap.mem_entries_iff.1 he) r hr)
  have hshown : ∀ records : List Trace, (∀ r ∈ records, r.tenant = some tenant) →
      ∀ n m source d, d ∈ (Response.sessions
        ((((sessionsOf records).1.entries.map fun e => SessionRollup.mk e.1 e.2).insertionSort
          sessionBefore).take n) m source).contents → NotForeign tenant (owner s d) := by
    intro records hown n m source d hd
    obtain ⟨item, hitem, hd⟩ := List.mem_flatMap.1 hd
    obtain ⟨r, hr, rfl⟩ := List.mem_map.1 hd
    have hsorted := List.mem_of_mem_take hitem
    rw [(List.perm_insertionSort _ _).mem_iff, List.mem_map] at hsorted
    obtain ⟨e, he, rfl⟩ := hsorted
    exact .of_eq (hrolled records hown e he r hr)
  intro d hd
  rw [sessions] at hd
  simp only at hd
  cases hstored : storedTraces s faults p {} (min (q.traceLimit.getD 1000) 5000) with
  | some records =>
    rw [hstored] at hd
    exact hshown records (fun r => tenant_of_mem_storedTraces hscope hstored) _ _ _ d hd
  | none =>
    rw [hstored] at hd
    exact hshown _ (fun r => tenant_of_mem_filteredMemoryTraces hscope) _ _ _ d hd

theorem own_sessionById {q : SessionsQuery} (hscope : scopedTenant p = some tenant) :
    ∀ d ∈ (sessionById s faults p id q).contents, NotForeign tenant (owner s d) := by
  intro d hd
  rw [sessionById] at hd
  split at hd
  · cases hd
  · rcases List.mem_append.1 hd with hd | hd
    · obtain ⟨r, hr, rfl⟩ := List.mem_map.1 hd
      exact .of_eq (tenant_of_mem_sessionRecords hscope hr)
    · obtain ⟨r, hr, rfl⟩ := List.mem_map.1 hd
      exact .of_eq (tenant_of_mem_traceValuesForQuery hscope (Or.inl hr))

theorem keys_single {α : Type} (k : String) (a : α) : (single k a).keys = [k] := rfl

theorem own_usage (hscope : scopedTenant p = some tenant) :
    ∀ d ∈ (usage s p).contents, NotForeign tenant (owner s d) := by
  intro d hd
  rw [usage, hscope] at hd
  rcases List.mem_append.1 hd with hd | hd
  · obtain ⟨k, hk, rfl⟩ := List.mem_map.1 hd
    simp only [keys_single, List.mem_append, List.mem_singleton, or_self] at hk
    exact .of_eq (congrArg some hk)
  · obtain ⟨r, hr, rfl⟩ := List.mem_map.1 hd
    have htenant : r.tenant = some tenant := by simpa using (List.mem_filter.1 hr).2
    exact .of_eq htenant

theorem own_usageEvents {error : String} (hscope : scopedTenant p = some tenant) :
    ∀ d ∈ (usageEvents s faults p error).contents, NotForeign tenant (owner s d) := by
  intro d hd
  rw [usageEvents] at hd
  cases hrows : s.usageStore with
  | none =>
    rw [hrows] at hd
    cases hd
  | some rows =>
    rw [hrows] at hd
    simp only at hd
    split_ifs at hd
    · cases hd
    · obtain ⟨r, hr, rfl⟩ := List.mem_map.1 hd
      have hfilter := (List.mem_filter.1 hr).2
      have htenant : r.tenant = some tenant := by simpa [hscope] using hfilter
      exact .of_eq htenant

end Filters

/-! ### Handlers that do not -/

section Unfiltered

variable {s : ServerState} {tenant : String}

theorem mem_jobsOf {w : WorkloadStore} {job : JobRecord} :
    job ∈ jobsOf w ↔ ∃ id, w.job id = some job := by
  rw [jobsOf, (List.perm_insertionSort _ _).mem_iff, List.mem_map]
  constructor
  · rintro ⟨⟨id, job⟩, he, rfl⟩
    exact ⟨id, OrdMap.mem_entries_iff.1 he⟩
  · rintro ⟨id, hid⟩
    exact ⟨(id, job), OrdMap.mem_entries_iff.2 hid, rfl⟩

theorem jobs_iff :
    (∀ d ∈ (jobs s).contents, NotForeign tenant (owner s d)) ↔
      ∀ id job, s.workloads.job id = some job → NotForeign tenant job.tenant := by
  rw [jobs, Response.contents, List.forall_mem_map]
  constructor
  · intro h id job hjob
    exact h job (mem_jobsOf.2 ⟨id, hjob⟩)
  · rintro h job hjob
    obtain ⟨id, hid⟩ := mem_jobsOf.1 hjob
    exact h id job hid

variable {id : String} {faults : Faults}

theorem jobById_iff :
    (∀ d ∈ (jobById s id).contents, NotForeign tenant (owner s d)) ↔
      ∀ job, s.workloads.job id = some job → NotForeign tenant job.tenant := by
  rw [jobById]
  cases s.workloads.job id with
  | none => simp [Response.contents]
  | some job => simp [Response.contents, owner]

theorem jobEvents_iff :
    (∀ d ∈ (jobEvents s id).contents, NotForeign tenant (owner s d)) ↔
      ∀ job, s.workloads.job id = some job → NotForeign tenant job.tenant := by
  rw [jobEvents]
  cases hjob : s.workloads.job id with
  | none => simp [Response.contents]
  | some job => simp [Response.contents, owner, hjob]

theorem artifactById_iff :
    (∀ d ∈ (artifactById s id).contents, NotForeign tenant (owner s d)) ↔
      ∀ a, s.workloads.artifacts.get id = some a →
        NotForeign tenant ((s.workloads.job a.record.jobId).bind (·.tenant)) := by
  rw [artifactById]
  cases s.workloads.artifacts.get id with
  | none => simp [Response.contents]
  | some a => simp [Response.contents, owner]

/-- What the body log has of a request, with its trace. -/
theorem bodyAuditForState_eq_ok {audit : BodyAudit} :
    bodyAuditForState s faults id = .ok audit ↔
      ∃ log evidence, s.bodyLog = some log ∧ log.get id = some evidence ∧
        audit = ⟨id, bodyTrace s faults id, evidence⟩ := by
  rw [bodyAuditForState]
  cases s.bodyLog with
  | none => simp
  | some log =>
    cases hget : log.get id with
    | none => simp [hget]
    | some evidence => simp [hget, eq_comm]

theorem bodyAuditById_iff :
    (∀ d ∈ (bodyAuditById s faults id).contents, NotForeign tenant (owner s d)) ↔
      (s.hasBodies id → NotForeign tenant ((bodyTrace s faults id).bind (·.tenant))) := by
  rw [bodyAuditById]
  cases haudit : bodyAuditForState s faults id with
  | error err =>
    refine iff_of_true (by simp [Response.contents]) ?_
    rintro ⟨log, evidence, hlog, hget⟩
    rw [bodyAuditForState_eq_ok.2 ⟨log, evidence, hlog, hget, rfl⟩] at haudit
    cases haudit
  | ok audit =>
    obtain ⟨log, evidence, hlog, hget, rfl⟩ := bodyAuditForState_eq_ok.1 haudit
    have hbodies : s.hasBodies id := ⟨log, evidence, hlog, hget⟩
    simp [Response.contents, owner, hbodies]

theorem bodyRawById_iff {loopback : Bool} {stage : String} :
    (∀ d ∈ (bodyRawById s faults loopback id stage).contents, NotForeign tenant (owner s d)) ↔
      (loopback = true → (∃ log evidence, s.bodyLog = some log ∧ log.get id = some evidence ∧
          (stage = "request" ∨ (stage = "response" ∧ evidence.responseRaw.isSome))) →
        NotForeign tenant ((bodyTrace s faults id).bind (·.tenant))) := by
  rw [bodyRawById]
  cases loopback with
  | false => simp [Response.contents]
  | true =>
    cases haudit : bodyAuditForState s faults id with
    | error err =>
      refine iff_of_true (by simp [Response.contents]) ?_
      rintro - ⟨log, evidence, hlog, hget, -⟩
      rw [bodyAuditForState_eq_ok.2 ⟨log, evidence, hlog, hget, rfl⟩] at haudit
      cases haudit
    | ok audit =>
      obtain ⟨log, evidence, hlog, hget, rfl⟩ := bodyAuditForState_eq_ok.1 haudit
      have honly : ∀ P : Evidence → Prop, (∃ log' evidence', s.bodyLog = some log' ∧
          log'.get id = some evidence' ∧ P evidence') ↔ P evidence := by
        intro P
        simp [hlog, hget]
      rw [honly]
      by_cases hrequest : stage = "request"
      · simp [hrequest, Response.contents, owner]
      · by_cases hresponse : stage = "response"
        · cases hraw : evidence.responseRaw <;>
            simp [hresponse, hraw, Response.contents, owner]
        · simp [hrequest, hresponse, Response.contents]

theorem job_markCancelled {w : WorkloadStore} {jobId : String} {control : FalRunControl}
    {now : ℕ} {u : Unit} {job : JobRecord} (hjob : w.job jobId = some job) :
    (markCancelled w id control (.ok u) now).1.job jobId = some job ↔ jobId ≠ id := by
  rw [markCancelled]
  simp only [WorkloadStore.updateJobEvent]
  cases hget : w.jobs.get id with
  | none =>
    refine iff_of_true hjob ?_
    rintro rfl
    rw [WorkloadStore.job, hget] at hjob
    cases hjob
  | some marked =>
    simp only [WorkloadStore.job, OrdMap.get_insert]
    by_cases hid : jobId = id
    · rw [if_pos hid]
      refine iff_of_false ?_ fun hne => hne hid
      intro hsame
      -- the marked job has one more event
      rw [hid, WorkloadStore.job, hget] at hjob
      rw [← hjob] at hsame
      have hevents := congrArg (fun j : JobRecord => j.events.length) (Option.some.inj hsame)
      simp [JobRecord.withEvent] at hevents
    · rw [if_neg hid]
      exact iff_of_true hjob hid

theorem cancelJob_iff {later : WorkloadStore} {answer : Except WorkloadError Unit} {now : ℕ} :
    (∀ jobId job, later.job jobId = some job → ¬ NotForeign tenant job.tenant →
        (cancelJob s.workloads later id answer now).job jobId = some job) ↔
      ((∃ control, startCancel s.workloads id = .preparing control) → answer.isOk →
        ∀ job, later.job id = some job → NotForeign tenant job.tenant) := by
  rw [cancelJob]
  cases hstart : startCancel s.workloads id with
  | sending => simp +contextual
  | done result => simp +contextual
  | preparing control =>
    cases answer with
    | error e => simp +contextual [markCancelled, Except.isOk, Except.toBool]
    | ok u =>
      constructor
      · rintro h - - job hjob
        by_contra hforeign
        exact (job_markCancelled hjob).1 (h id job hjob hforeign) rfl
      · intro h jobId job hjob hforeign
        refine (job_markCancelled hjob).2 ?_
        rintro rfl
        exact hforeign (h ⟨control, rfl⟩ rfl job hjob)

end Unfiltered

/-! ### All of them -/

/-- **What an operator sees.**  In every state, an answer to a principal that is bound to a tenant
shows nothing of another, and a cancellation changes no job of another, exactly when there is
nothing of another for it to show or to change; the handlers that filter need no condition. -/
theorem confined_iff (s : ServerState) (p : Principal) (tenant : String) (c : Call)
    (hrole : p.role ≠ .admin) (htenant : p.tenant = some tenant) :
    Confined s p tenant c ↔ OwnOnly s tenant c := by
  have hscope := scopedTenant_of hrole htenant
  cases c with
  | cancelJob id later answer now => exact cancelJob_iff
  | read r faults =>
    cases r with
    | traces q => exact iff_of_true (own_traces hscope) trivial
    | traceById id => exact iff_of_true (own_traceById hscope) trivial
    | sessions q => exact iff_of_true (own_sessions hscope) trivial
    | sessionById id q => exact iff_of_true (own_sessionById hscope) trivial
    | usage => exact iff_of_true (own_usage hscope) trivial
    | usageEvents error => exact iff_of_true (own_usageEvents hscope) trivial
    | jobs => exact jobs_iff
    | jobById id => exact jobById_iff
    | jobEvents id => exact jobEvents_iff
    | artifactById id => exact artifactById_iff
    | bodyAuditById id => exact bodyAuditById_iff
    | bodyRawById loopback id stage => exact bodyRawById_iff

/-- A fal job of the tenant `globex`, which has been submitted. -/
def globexCall : FalCall where
  jobId := "job_1"
  target := "fal/flux"
  providerId := "fal"
  model := "flux"
  accountId := "default"
  tenant := some "globex"
  project := none
  startedAtMs := 0

/-- The job runs at fal. -/
def globexStore : WorkloadStore :=
  WorkloadStore.insertFalRun {} (globexCall.record .running 1 [] []) ⟨"fal", "flux", "r1"⟩

/-- A gateway with that job and nothing else. -/
def globexState : ServerState where
  traceStore := none
  ring := []
  traceFile := []
  summary := {}
  durability := .new
  recentUsage := []
  usageStore := none
  workloads := globexStore
  bodyLog := none

/-- An operator of the tenant `acme`. -/
def acmeOperator : Principal := ⟨some "acme", none, .operator⟩

theorem globex_job : globexStore.job "job_1" = some (globexCall.record .running 1 [] []) := rfl

theorem not_notForeign : ¬ NotForeign "acme" (some "globex") := by
  intro h
  exact absurd (h "globex" rfl) (by decide)

/-- The job is shown to an operator of its own tenant, and the condition fails for another. -/
theorem confined_iff_job :
    Confined globexState ⟨some "globex", none, .operator⟩ "globex"
        (.read (.jobById "job_1") ⟨false, false, false⟩) ∧
      (Confined globexState acmeOperator "acme" (.read (.jobById "job_1") ⟨false, false, false⟩) ↔
        OwnOnly globexState "acme" (.read (.jobById "job_1") ⟨false, false, false⟩)) ∧
      ¬ OwnOnly globexState "acme" (.read (.jobById "job_1") ⟨false, false, false⟩) := by
  have howner (job : JobRecord) (h : globexStore.job "job_1" = some job) :
      job.tenant = some "globex" := by
    rw [globex_job] at h
    cases h
    rfl
  refine ⟨(confined_iff globexState _ "globex" _ (by decide) rfl).2 ?_,
    confined_iff globexState acmeOperator "acme" _ (by decide) rfl, fun h => ?_⟩
  · exact fun job hjob => .of_eq (howner job hjob)
  · exact not_notForeign (h _ globex_job)

/-- The operator of `acme` is let through, reads the job of `globex`, and cancels it. -/
theorem operator_crosses_tenants :
    unauthorizedRole acmeOperator .get "/v1/jobs/job_1" = false ∧
      unauthorizedRole acmeOperator .post "/v1/jobs/job_1/cancel" = false ∧
      ¬ Confined globexState acmeOperator "acme"
        (.read (.jobById "job_1") ⟨false, false, false⟩) ∧
      ¬ Confined globexState acmeOperator "acme"
        (.cancelJob "job_1" globexStore (.ok ()) 2) := by
  refine ⟨by decide, by decide, fun h => ?_, fun h => ?_⟩
  · have hread : ∀ d ∈ (jobById globexState "job_1").contents,
        NotForeign "acme" (owner globexState d) := h
    exact not_notForeign (jobById_iff.1 hread _ globex_job)
  · have hcancel := (cancelJob_iff (s := globexState)).1 h
    exact not_notForeign (hcancel ⟨⟨"fal", "flux", "r1"⟩, rfl⟩ rfl _ globex_job)

end Tenancy

end Switchback
