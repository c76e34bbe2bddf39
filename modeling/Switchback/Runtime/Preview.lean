import Switchback.Lib.Observers
import Switchback.Runtime.Profiles
import Switchback.Scorecard.Live

/-!
# Route preview

A preview plans a request as the execution core would, without executing it.  It leaves out the
compression of tool results, the spend caps and the memory of the exact-request cache, and it does
not move the cursor of a combo.
-/

namespace Switchback

namespace Preview

open Lib Router Profiles

/-- The configured plugins.  The guest of a Wasm plugin answers with a status or an error for the
model of a request. -/
inductive Plugin where
  | modelBlocklist (models : List String)
  | requestTag (tags : OrdMap String String)
  | egressPin
  | wasm (label : String) (failClosed : Bool) (runPreRoute : String → Except String ℤ)
  | noop

/-- Exact, or a prefix before a final star. -/
def globMatch (pattern value : String) : Bool :=
  match Text.stripSuffix "*" pattern with
  | some start => Text.startsWith start value
  | none => pattern = value

def Plugin.preRoute (plugin : Plugin) (req : AiRequest) : PluginOutcome × AiRequest :=
  match plugin with
  | modelBlocklist models =>
      if models.any fun pattern => globMatch pattern req.model then
        (.reject 403 s!"model `{req.model}` is blocked by policy", req)
      else (.proceed, req)
  | requestTag tags =>
      -- a tag that the request has already stays
      (.proceed,
        { req with
          metadata := tags.entries.foldl
            (fun metadata tag =>
              if (metadata.get tag.1).isSome then metadata else metadata.insert tag.1 tag.2)
            req.metadata })
  | egressPin | noop => (.proceed, req)
  | wasm label failClosed runPreRoute =>
      match runPreRoute req.model with
      | .ok code =>
          if code = 0 then (.proceed, req)
          else
            (.reject (max 400 (min 599 code)).toNat s!"rejected by wasm plugin `{label}`", req)
      | .error _ =>
          if failClosed then (.reject 503 s!"wasm plugin `{label}` failed closed", req)
          else (.proceed, req)

/-- The plugins in order; the first rejection ends the chain. -/
def preRoute : List Plugin → AiRequest → PluginOutcome × AiRequest
  | [], req => (.proceed, req)
  | plugin :: plugins, req =>
      match plugin.preRoute req with
      | (.proceed, req) => preRoute plugins req
      | (.reject status message, req) => (.reject status message, req)

/-! ### Compression -/

/-- The functions that are not read here: the filters of the tool-result compressor, the
fingerprint of a request and the identity of a set of judge targets. -/
structure Env where
  compressText : String → String
  exactRequestKey : AiRequest → String
  evaluatorId : List String → String

def minCompressBytes : ℕ := 500

def maxCompressBytes : ℕ := 10 * 1024 * 1024

/-- A successful tool result of unstructured text within the size gates is compressed. -/
def compressPart (env : Env) : ContentPart → ContentPart
  | .toolResult id content contentParts isError =>
      let structured := !(contentParts.isEmpty || contentParts == [.text content])
      if isError || structured then .toolResult id content contentParts isError
      else if !(decide (minCompressBytes ≤ Text.len content) &&
          decide (Text.len content ≤ maxCompressBytes)) then
        .toolResult id content contentParts isError
      else
        let compressed := env.compressText content
        let contentParts := match contentParts with
          | [.text _] => [.text compressed]
          | parts => parts
        .toolResult id compressed contentParts isError
  | part => part

def compressMessages (env : Env) (messages : List Message) : List Message :=
  messages.map fun message => { message with content := message.content.map (compressPart env) }

def compressRequest (env : Env) (req : AiRequest) : AiRequest :=
  { req with messages := compressMessages env req.messages }

/-! ### The exact-request cache -/

inductive CacheStatus where
  | hit
  | miss
  | bypass
  deriving DecidableEq

structure CacheLookupReceipt where
  status : CacheStatus
  key : Option String := none
  reason : Option String := none
  ttlSeconds : Option ℕ

/-- Why a request bypasses the cache. -/
def bypassReason (policy : CachePolicy) (req : AiRequest) : Option String :=
  if !policy.enabled then some "cache_policy=disabled"
  else
    match req.privacyClass with
    | .standard => none
    | .sensitive => if policy.allowSensitive then none else some "privacy_class=sensitive"
    | .confidential => if policy.allowConfidential then none else some "privacy_class=confidential"

/-- Fingerprints with the second they were last remembered. -/
abbrev ExactRequestCache := OrdMap String ℕ

def containsAt (cache : ExactRequestCache) (key : String) (nowUnix : ℕ)
    (ttlSeconds : Option ℕ) : Bool :=
  match cache.get key, ttlSeconds with
  | none, _ => false
  | some seenAt, some ttl => decide (nowUnix - seenAt ≤ ttl)
  | some _, none => true

def CacheLookupReceipt.forRequest (env : Env) (req : AiRequest) (policy : CachePolicy)
    (cache : ExactRequestCache) (nowUnix : ℕ) : CacheLookupReceipt :=
  match bypassReason policy req with
  | none =>
      let key := env.exactRequestKey req
      { status := if containsAt cache key nowUnix policy.ttlSeconds then .hit else .miss
        key := some key
        ttlSeconds := policy.ttlSeconds }
  | some reason => { status := .bypass, reason := some reason, ttlSeconds := policy.ttlSeconds }

/-- A miss is remembered. -/
def lookupExactCache (env : Env) (cache : ExactRequestCache) (req : AiRequest)
    (policy : CachePolicy) (nowUnix : ℕ) : CacheLookupReceipt × ExactRequestCache :=
  let receipt := CacheLookupReceipt.forRequest env req policy cache nowUnix
  (receipt,
    if receipt.status = .miss then cache.insert (env.exactRequestKey req) nowUnix else cache)

def previewCacheReceipt (env : Env) (req : AiRequest) (policy : CachePolicy) (nowUnix : ℕ) :
    CacheLookupReceipt :=
  CacheLookupReceipt.forRequest env req policy OrdMap.empty nowUnix

/-! ### The engine -/

/-- What a publication swaps. -/
structure Snapshot where
  revision : ℕ := 0
  config : Config
  runtime : Profiles.Runtime := {}
  registry : Registry
  plugins : List Plugin := []

/-- What routing reads of an engine. -/
structure EngineState where
  snapshot : Snapshot
  resolver : CredentialResolver
  scorecard : LiveScorecard := .new
  comboRr : ComboCursors := OrdMap.empty
  exactCache : ExactRequestCache := OrdMap.empty

/-- The accounts of a provider that are usable for a model; none while its circuit is open. -/
def healthyAccounts (resolver : CredentialResolver) (providerId model : String) (now : ℕ) : ℕ :=
  match resolver.providers.get providerId with
  | none => 0
  | some pa =>
      if (resolver.breaker.view providerId now).state = .open then 0
      else pa.accounts.countP fun a => resolver.availability.isAvailable providerId a.id model now

/-- Stamp a candidate with the health of its account pool and with the evidence of the scorecard. -/
def stamp (env : Env) (config : Config) (resolver : CredentialResolver) (now : ℕ)
    (scorecard : LiveScorecard) (candidate : ExecutionTarget) : ExecutionTarget × LiveScorecard :=
  let server := config.server
  let key : ScorecardKey := (candidate.id, "any")
  let (outcome, scorecard) := scorecard.project server.scorecard key now
  let candidate :=
    { candidate with
      healthyAccounts :=
        some (healthyAccounts resolver candidate.providerId candidate.model now)
      outcome := outcome }
  if server.qualityEval.enabled then
    let (quality, scorecard) := scorecard.projectQuality server.scorecard server.qualityEval key
      (env.evaluatorId server.qualityEval.bodyAllowedTargets) now
    ({ candidate with quality := quality }, scorecard)
  else (candidate, scorecard)

def stampAll (env : Env) (config : Config) (resolver : CredentialResolver) (now : ℕ) :
    LiveScorecard → List ExecutionTarget → List ExecutionTarget × LiveScorecard
  | scorecard, [] => ([], scorecard)
  | scorecard, candidate :: candidates =>
      let (candidate, scorecard) := stamp env config resolver now scorecard candidate
      let (candidates, scorecard) := stampAll env config resolver now scorecard candidates
      (candidate :: candidates, scorecard)

namespace EngineState

variable (env : Env) (e : EngineState)

def resolveCandidates (model : String) (now : ℕ) :
    Except ExecError Profiles.CandidateResolution × LiveScorecard :=
  match resolveRoute e.snapshot.config e.snapshot.registry model with
  | .error error => (.error error, e.scorecard)
  | .ok resolved =>
      let (candidates, scorecard) :=
        stampAll env e.snapshot.config e.resolver now e.scorecard resolved.candidates
      (.ok { resolved with candidates := candidates }, scorecard)

/-- The plan of a request under its profile. -/
def plan (req : AiRequest) (profile : Option Profiles.ClientProfileConfig) (now : ℕ)
    (advanceComboCursor : Bool) : Except ExecError RoutePlan × EngineState :=
  match e.resolveCandidates env req.model now with
  | (.error error, scorecard) => (.error error, { e with scorecard := scorecard })
  | (.ok resolved, scorecard) =>
      let (planned, comboRr) := planResolvedRoute e.comboRr e.snapshot.config e.snapshot.runtime
        e.resolver req profile resolved advanceComboCursor
      (planned.map Prod.snd, { e with scorecard := scorecard, comboRr := comboRr })

def pluginRejected (status : ℕ) (message : String) : ExecError where
  status := status
  errorType := "plugin_rejected"
  message := message

/-- A plan with the receipt of its cache lookup. -/
structure Planned where
  plan : RoutePlan
  cache : CacheLookupReceipt

/-- `preview_route`, with its revision. -/
def previewRoute (req : AiRequest) (now nowUnix : ℕ) :
    Except ExecError (ℕ × Planned) × EngineState :=
  match preRoute e.snapshot.plugins req with
  | (.reject status message, _) => (.error (pluginRejected status message), e)
  | (.proceed, req) =>
  match applyRequestClientProfile e.snapshot.config req with
  | .error error => (.error error, e)
  | .ok (profile, req) =>
      let (planned, e') := e.plan env req profile now false
      (planned.map fun plan =>
        (e.snapshot.revision,
          { plan := plan
            cache := previewCacheReceipt env req e.snapshot.config.server.executionCache nowUnix }),
        e')

/-- The refusal of the global cap. -/
def overGlobalBudget (spend : Except String F64) : Option ExecError :=
  overBudget e.snapshot.runtime.budgetMaxUsd spend "budget_exceeded" fun spent cap =>
    s!"budget exceeded: spent ${spent} of ${cap} cap"

/-- The refusal of the cap of the tenant. -/
def overTenantBudget (req : AiRequest) (spend : Except String F64) : Option ExecError :=
  req.tenant.bind fun tenant =>
    overBudget ((e.snapshot.config.tenant tenant).bind Profiles.TenantConfig.budgetUsd) spend
      "tenant_budget_exceeded" fun spent cap =>
        "tenant `" ++ tenant ++ s!"` budget exceeded: spent ${spent} of ${cap} cap"

/-- The front half of `execute`, up to the route decision that it records.  `globalSpend` and
`tenantSpend` are what the ledger answers. -/
def executeRoute (req : AiRequest) (now nowUnix : ℕ) (globalSpend tenantSpend : Except String F64) :
    Except ExecError Planned × EngineState :=
  match e.overGlobalBudget globalSpend with
  | some error => (.error error, e)
  | none =>
  match e.overTenantBudget req tenantSpend with
  | some error => (.error error, e)
  | none =>
  let req := if e.snapshot.config.server.compressToolResults then compressRequest env req else req
  match preRoute e.snapshot.plugins req with
  | (.reject status message, _) => (.error (pluginRejected status message), e)
  | (.proceed, req) =>
  match applyRequestClientProfile e.snapshot.config req with
  | .error error => (.error error, e)
  | .ok (profile, req) =>
      let (cache, exactCache) := lookupExactCache env e.exactCache req
        e.snapshot.config.server.executionCache nowUnix
      let (planned, e') := { e with exactCache := exactCache }.plan env req profile now true
      (planned.map fun plan => { plan := plan, cache := cache }, e')

end EngineState

/-! ### Planning reads no text -/

section Messages

variable (req : AiRequest) (messages : List Message)

/-- The same request with other messages. -/
def withMessages : AiRequest := { req with messages := messages }

/-- The image parts of messages. -/
def imageParts (messages : List Message) : List ContentPart :=
  (messages.flatMap Message.content).filter ContentPart.isImage

theorem imageParts_compressMessages (env : Env) (messages : List Message) :
    imageParts (compressMessages env messages) = imageParts messages := by
  have hpart (p : ContentPart) : (compressPart env p).isImage = p.isImage ∧
      (p.isImage = true → compressPart env p = p) := by
    cases p with
    | toolResult id content contentParts isError =>
      refine ⟨?_, fun h => by cases h⟩
      unfold compressPart
      dsimp only
      split_ifs <;> rfl
    | _ => exact ⟨rfl, fun _ => rfl⟩
  have hfilter (l : List ContentPart) :
      (l.map (compressPart env)).filter ContentPart.isImage = l.filter ContentPart.isImage := by
    induction l with
    | nil => rfl
    | cons p l ih =>
      obtain ⟨hsame, hkeep⟩ := hpart p
      rw [List.map_cons]
      by_cases hp : p.isImage = true
      · rw [List.filter_cons_of_pos (hsame.trans hp), List.filter_cons_of_pos hp, ih, hkeep hp]
      · rw [List.filter_cons_of_neg (fun h => hp (hsame.symm.trans h)),
          List.filter_cons_of_neg hp, ih]
  unfold imageParts compressMessages
  rw [List.flatMap_map, ← hfilter (messages.flatMap Message.content), List.map_flatMap]

variable {messages} (h : imageParts messages = imageParts req.messages)

include h

theorem imageCount_withMessages : (withMessages req messages).imageCount = req.imageCount :=
  congrArg List.length h

theorem any_parts_withMessages {p : ContentPart → Bool} (hp : ∀ c, p c = true → c.isImage = true) :
    (withMessages req messages).parts.any p = req.parts.any p := by
  have hany (l : List ContentPart) : l.any p = (l.filter ContentPart.isImage).any p := by
    rw [List.any_filter]
    congr 1
    funext c
    cases hc : p c with
    | true => rw [hp c hc, Bool.and_self]
    | false => rw [Bool.and_false]
  rw [hany, hany req.parts]
  exact congrArg (fun l => List.any l p) h

theorem findSome_parts_withMessages {β : Type} {f : ContentPart → Option β}
    (hf : ∀ c, c.isImage = false → f c = none) :
    (withMessages req messages).parts.findSome? f = req.parts.findSome? f := by
  have hfind (l : List ContentPart) :
      l.findSome? f = (l.filter ContentPart.isImage).findSome? f := by
    induction l with
    | nil => rfl
    | cons c l ih =>
      cases hc : c.isImage with
      | true => rw [List.filter_cons_of_pos hc, List.findSome?_cons, List.findSome?_cons, ih]
      | false =>
        rw [List.filter_cons_of_neg (by simp [hc]), List.findSome?_cons, hf c hc]
        exact ih
  rw [hfind, hfind req.parts]
  exact congrArg (List.findSome? f) h

theorem needs_withMessages (require : RouteRequire) :
    Needs.of (withMessages req messages) require = Needs.of req require := by
  have hvision : (withMessages req messages).requiresVision = req.requiresVision := by
    unfold AiRequest.requiresVision
    rw [imageCount_withMessages req h]
  have hsources : (withMessages req messages).requiredImageSources = req.requiredImageSources := by
    unfold AiRequest.requiredImageSources
    refine List.filter_congr fun k _ => any_parts_withMessages req h fun c hc => ?_
    cases c with
    | image => rfl
    | _ => simp [ContentPart.imageSourceKind] at hc
  unfold Needs.of
  rw [hvision, hsources]
  rfl

theorem rejection_withMessages (require : RouteRequire) (policy : RoutingPolicy) :
    rejection (withMessages req messages) require policy = rejection req require policy := by
  have hrefs (c : ExecutionTarget) : providerFileRefScopeMismatch (withMessages req messages) c =
      providerFileRefScopeMismatch req c := by
    refine findSome_parts_withMessages req h fun part hpart => ?_
    cases part with
    | image => cases hpart
    | _ => rfl
  have hcheck (needs : Needs) :
      fileRefScopeCheck needs (withMessages req messages) = fileRefScopeCheck needs req := by
    funext c
    unfold fileRefScopeCheck
    rw [hrefs]
  funext relaxVision c
  unfold rejection hardChecks
  simp only [needs_withMessages req h, hcheck]

/-- **Planning reads no message but its image parts.** -/
theorem planRoute_withMessages (routeName : String) (require : RouteRequire)
    (candidates : List ExecutionTarget) (policy : RoutingPolicy) :
    planRoute (withMessages req messages) routeName require candidates policy =
      planRoute req routeName require candidates policy := by
  have hneeds := needs_withMessages req h require
  have hcount := imageCount_withMessages req h
  have hdegradable : visionDegradable (withMessages req messages) require policy =
      visionDegradable req require policy := by
    unfold visionDegradable AiRequest.requiresVision
    rw [hneeds, hcount]
  have hdecision (loop : PassState × Bool × ℕ) :
      filteredDecision (withMessages req messages) routeName require policy loop =
        filteredDecision req routeName require policy loop := by
    unfold filteredDecision requirementReasons
    rw [hneeds, hcount]
    rfl
  unfold planRoute
  rw [hneeds, rejection_withMessages req h, hdegradable]
  simp only [hdecision]

theorem plan_withMessages (env : Env) (e : EngineState)
    (profile : Option Profiles.ClientProfileConfig) (now : ℕ) (advance : Bool) :
    e.plan env (withMessages req messages) profile now advance =
      e.plan env req profile now advance := by
  unfold EngineState.plan planResolvedRoute
  simp only [planRoute_withMessages req h]
  rfl

end Messages

theorem preRoute_withMessages (plugins : List Plugin) (req : AiRequest)
    (messages : List Message) :
    preRoute plugins (withMessages req messages) =
      ((preRoute plugins req).1, withMessages (preRoute plugins req).2 messages) := by
  have hplugin (plugin : Plugin) (req : AiRequest) :
      plugin.preRoute (withMessages req messages) =
        ((plugin.preRoute req).1, withMessages (plugin.preRoute req).2 messages) := by
    have hmodel : (withMessages req messages).model = req.model := rfl
    cases plugin with
    | modelBlocklist models =>
      unfold Plugin.preRoute
      simp only [hmodel]
      split_ifs <;> rfl
    | wasm label failClosed runPreRoute =>
      unfold Plugin.preRoute
      simp only [hmodel]
      cases runPreRoute req.model with
      | ok code => dsimp only; split_ifs <;> rfl
      | error message => dsimp only; split_ifs <;> rfl
    | _ => rfl
  induction plugins generalizing req with
  | nil => rfl
  | cons plugin plugins ih =>
    unfold preRoute
    rw [hplugin]
    rcases plugin.preRoute req with ⟨_ | _, req'⟩
    · exact ih req'
    · rfl

theorem preRoute_messages (plugins : List Plugin) (req : AiRequest) :
    (preRoute plugins req).2.messages = req.messages := by
  have hsame := preRoute_withMessages plugins req req.messages
  have hsnd := congrArg (fun r : PluginOutcome × AiRequest => r.2.messages) hsame
  exact hsnd

theorem applyRequestClientProfile_withMessages (config : Config) (req : AiRequest)
    (messages : List Message) :
    applyRequestClientProfile config (withMessages req messages) =
      (applyRequestClientProfile config req).map fun r => (r.1, withMessages r.2 messages) := by
  have hadmit (profile : Profiles.ClientProfileConfig) :
      admitClientProfile profile (withMessages req messages) =
        (admitClientProfile profile req).map fun r => (r.1, withMessages r.2 messages) := by
    have hmodel : (withMessages req messages).model = req.model := rfl
    have hmetadata : (withMessages req messages).metadata = req.metadata := rfl
    unfold admitClientProfile
    simp only [hmodel, hmetadata]
    by_cases henabled : (!profile.enabled) = true
    · rw [if_pos henabled, if_pos henabled]
      rfl
    rw [if_neg henabled, if_neg henabled]
    cases (req.metadata.get "client_protocol").filter fun p => p ≠ profile.kind.protocol with
    | some protocol => rfl
    | none => dsimp only; split_ifs <;> rfl
  have hmetadata : (withMessages req messages).metadata = req.metadata := rfl
  have hinfer : inferClientProfileForModel config (withMessages req messages) =
      inferClientProfileForModel config req := rfl
  unfold applyRequestClientProfile
  simp only [hmetadata, hinfer, hadmit]
  generalize ((req.metadata.get "client_profile").bind fun id =>
    config.clientProfiles.find? fun profile => profile.id = id) = configured
  generalize (req.metadata.get "client_profile_source" == some "header") = fromHeader
  generalize (if configured.isNone && !fromHeader then
    inferClientProfileForModel config req else Except.ok none) = inferred
  cases inferred with
  | error error => rfl
  | ok inferred =>
    dsimp only [bind, Except.bind]
    cases configured.or inferred with
    | some profile => rfl
    | none =>
      dsimp only
      split_ifs <;> rfl

theorem applyRequestClientProfile_messages {config : Config} {req req' : AiRequest}
    {profile : Option Profiles.ClientProfileConfig}
    (h : applyRequestClientProfile config req = .ok (profile, req')) :
    req'.messages = req.messages := by
  have hsame := applyRequestClientProfile_withMessages config req req.messages
  have hself : withMessages req req.messages = req := rfl
  rw [hself, h] at hsame
  have hok := Except.ok.inj hsame
  exact congrArg (fun r : Option Profiles.ClientProfileConfig × AiRequest => r.2.messages) hok

/-! ### The preview and the plan -/

section Agreement

variable (env : Env) (e : EngineState) (req : AiRequest) (now nowUnix : ℕ)

/-- Is the request within the caps? -/
def WithinBudget (globalSpend tenantSpend : Except String F64) : Prop :=
  e.overGlobalBudget globalSpend = none ∧ e.overTenantBudget req tenantSpend = none

theorem plan_fst_advance (profile : Option Profiles.ClientProfileConfig) (advance : Bool) :
    (e.plan env req profile now advance).1 = (e.plan env req profile now false).1 := by
  have horder (comboRr : ComboCursors) (resolved : Profiles.CandidateResolution) :
      (applyComboOrder comboRr resolved advance).1 = (applyComboOrder comboRr resolved false).1 := by
    unfold applyComboOrder
    cases resolved.combo with
    | none => rfl
    | some combo =>
      dsimp only
      cases combo.strategy with
      | fallback => rfl
      | roundRobin => dsimp only; split_ifs <;> rfl
  unfold EngineState.plan
  rcases e.resolveCandidates env req.model now with ⟨_ | resolved, scorecard⟩
  · rfl
  · unfold planResolvedRoute
    dsimp only
    rw [horder]
    split <;> rfl

theorem plan_fst_exactCache (profile : Option Profiles.ClientProfileConfig) (advance : Bool)
    (exactCache : ExactRequestCache) :
    ({ e with exactCache := exactCache }.plan env req profile now advance).1 =
      (e.plan env req profile now advance).1 := by
  have hresolve : { e with exactCache := exactCache }.resolveCandidates env req.model now =
      e.resolveCandidates env req.model now := rfl
  unfold EngineState.plan
  rw [hresolve]
  rcases e.resolveCandidates env req.model now with ⟨_ | resolved, scorecard⟩ <;> rfl

theorem compressed_eq (on : Bool) : ∃ messages,
    imageParts messages = imageParts req.messages ∧
      (if on then compressRequest env req else req) = withMessages req messages := by
  cases on with
  | true => exact ⟨_, imageParts_compressMessages env req.messages, rfl⟩
  | false => exact ⟨req.messages, rfl, rfl⟩

/-- **A preview plans what execution would.** -/
theorem preview_plan_eq {globalSpend tenantSpend : Except String F64}
    (h : WithinBudget e req globalSpend tenantSpend) :
    (e.previewRoute env req now nowUnix).1.map (fun r => r.2.plan) =
      (e.executeRoute env req now nowUnix globalSpend tenantSpend).1.map fun r => r.plan := by
  obtain ⟨messages, himages, hcompressed⟩ :=
    compressed_eq env req e.snapshot.config.server.compressToolResults
  unfold EngineState.previewRoute EngineState.executeRoute
  rw [h.1, h.2]
  dsimp only
  rw [hcompressed, preRoute_withMessages]
  have hmessages := preRoute_messages e.snapshot.plugins req
  revert hmessages
  rcases preRoute e.snapshot.plugins req with ⟨_ | _, req₁⟩
  · intro hmessages
    dsimp only at hmessages ⊢
    rw [applyRequestClientProfile_withMessages]
    cases happly : applyRequestClientProfile e.snapshot.config req₁ with
    | error error => rfl
    | ok r =>
      obtain ⟨profile, req₂⟩ := r
      have himages' : imageParts messages = imageParts req₂.messages := by
        rw [applyRequestClientProfile_messages happly, hmessages, himages]
      have hplan (exactCache : ExactRequestCache) :
          ({ e with exactCache := exactCache }.plan env (withMessages req₂ messages) profile now
            true).1 = (e.plan env req₂ profile now false).1 := by
        rw [plan_withMessages req₂ himages', plan_fst_advance, plan_fst_exactCache]
      dsimp only [Except.map]
      rw [hplan]
      cases (e.plan env req₂ profile now false).1 <;> rfl
  · intro _
    rfl

end Agreement

end Preview

end Switchback
