import Switchback.Runtime.Admission
import Switchback.Quality.Config

/-!
# Routes, combos and profiles

What the routing front half reads of a config: the client profile that a request falls under, the
candidates of its model, and the plan that the tenant, the profile and the combo leave.
-/

namespace Switchback

namespace Profiles

open Lib Router

/-! ### The config -/

/-- A route: the models it is for, and its targets in order. -/
structure RouteConfig where
  name : String
  matchModel : Option String := none
  require : RouteRequire := {}
  targets : List String

/-- Whether a combo starts at its first member or takes turns. -/
inductive ComboStrategy where
  | fallback
  | roundRobin

/-- The strategy as the decision names it. -/
def ComboStrategy.asStr : ComboStrategy → String
  | fallback => "fallback"
  | roundRobin => "round_robin"

/-- A named list of models. -/
structure ComboConfig where
  strategy : ComboStrategy := .fallback
  require : RouteRequire := {}
  models : List String := []

/-- A tenant with its lists and its budget. -/
structure TenantConfig extends Switchback.TenantConfig where
  allowedRoutes : List String := []
  allowedProviders : List String := []
  budgetUsd : Option F64 := none

/-- The client a profile is for. -/
inductive ClientProfileKind where
  | codex
  | claudeCode

/-- The protocol that the client speaks. -/
def ClientProfileKind.protocol : ClientProfileKind → String
  | codex => "openai_responses"
  | claudeCode => "anthropic_messages"

/-- How the client reaches the gateway. -/
inductive ClientProfileMode where
  | switchbackIngress
  | nativeRelay
  | tap
  | scoutApi

/-- The mode as a request names it. -/
def ClientProfileMode.asStr : ClientProfileMode → String
  | switchbackIngress => "switchback_ingress"
  | nativeRelay => "native_relay"
  | tap => "tap"
  | scoutApi => "scout_api"

/-- A client with the models and accounts it may use. -/
structure ClientProfileConfig extends Switchback.ClientProfileConfig where
  kind : ClientProfileKind
  enabled : Bool := true
  mode : ClientProfileMode := .switchbackIngress
  models : List String := []

/-- The policy of the exact-request cache. -/
structure CachePolicy where
  enabled : Bool := true
  ttlSeconds : Option ℕ := some 3600
  allowSensitive : Bool := false
  allowConfidential : Bool := false

/-- The knobs of the server that planning reads. -/
structure ServerConfig where
  defaultProvider : Option String := none
  compressToolResults : Bool := false
  executionCache : CachePolicy := {}
  costMaxPerMtok : Option F64 := none
  costAllowFree : Bool := true
  costAllowPromo : Bool := true
  costAllowAggregator : Bool := true
  visionDegrade : Bool := true
  costUnknown : UnknownCostPolicy := .allow
  contextUnknown : UnknownContextPolicy := .allow
  scorecard : ScorecardConfig := {}
  qualityEval : Quality.EvalConfig := {}

/-- The part of the config that planning reads. -/
structure Config where
  server : ServerConfig := {}
  routes : List RouteConfig := []
  combos : OrdMap String ComboConfig := OrdMap.empty
  tenants : List TenantConfig := []
  clientProfiles : List ClientProfileConfig := []

namespace Config

variable (config : Config)

/-- The route that names the model. -/
def exactRouteFor (model : String) : Option RouteConfig :=
  config.routes.find? fun r => r.matchModel = some model

/-- The route for every other model. -/
def wildcardRoute : Option RouteConfig := config.exactRouteFor "*"

/-- The combo that is called like the model. -/
def comboFor (model : String) : Option ComboConfig := config.combos.get model

/-- The tenant with an id. -/
def tenant (id : String) : Option TenantConfig := config.tenants.find? fun t => t.id = id

end Config

/-- The targets of the catalog with their measured latencies, by id and by provider and model. -/
structure Registry where
  targetFor : String → Option ExecutionTarget
  targetForProviderModel : String → String → Option ExecutionTarget

/-- The knobs of the runtime that routing reads. -/
structure Runtime where
  costAware : Bool := false
  latencyAware : Bool := false
  budgetMaxUsd : Option F64 := none

/-! ### The policy -/

/-- The profile that a model name stands for. -/
def ExecutionProfile.fromModel : String → Option ExecutionProfile
  | "auto" => some .auto
  | "auto/cheap" => some .cheap
  | "auto/fast" => some .fast
  | "auto/coding" => some .coding
  | "auto/private" => some .privateLane
  | "auto/large-context" | "auto/large_context" => some .largeContext
  | "auto/judge" | "auto/critique" => some .judge
  | "auto/extract" | "auto/classify" => some .extract
  | _ => none

namespace ScoringPolicy

/-- A number of hundredths. -/
def hundredths (n : ℕ) : F64 := Fp.ofDecimal n 2

/-- The weights of `auto`. -/
def balanced : ScoringPolicy where
  selectionRank := hundredths 10
  health := hundredths 25
  accountAvailability := hundredths 15
  cost := hundredths 15
  latency := hundredths 15
  contextFit := hundredths 20

/-- The weights of `auto/cheap`. -/
def cheap : ScoringPolicy where
  selectionRank := hundredths 5
  health := hundredths 20
  accountAvailability := hundredths 10
  cost := hundredths 60
  latency := hundredths 5

/-- The weights of `auto/fast`. -/
def fast : ScoringPolicy where
  selectionRank := hundredths 5
  health := hundredths 20
  accountAvailability := hundredths 15
  cost := hundredths 5
  latency := hundredths 25
  ttft := hundredths 30

/-- The weights of `auto/coding`. -/
def coding : ScoringPolicy where
  selectionRank := hundredths 5
  health := hundredths 20
  accountAvailability := hundredths 15
  cost := hundredths 10
  latency := hundredths 10
  taskFit := hundredths 30
  contextFit := hundredths 10

/-- The weights of `auto/large-context`. -/
def largeContext : ScoringPolicy where
  selectionRank := hundredths 5
  health := hundredths 15
  accountAvailability := hundredths 10
  cost := hundredths 5
  latency := hundredths 5
  contextFit := hundredths 60

/-- The weights of `auto/judge`. -/
def judge : ScoringPolicy where
  selectionRank := hundredths 35
  health := hundredths 25
  accountAvailability := hundredths 15
  cost := hundredths 5
  latency := hundredths 5
  contextFit := hundredths 15

/-- The weights of `auto/extract`. -/
def extract : ScoringPolicy where
  selectionRank := hundredths 10
  health := hundredths 20
  accountAvailability := hundredths 15
  cost := hundredths 35
  latency := hundredths 10
  contextFit := hundredths 10

end ScoringPolicy

/-- The policy of a request: the knobs of the config, and the weights of its profile. -/
def routingPolicy (config : Config) (runtime : Runtime) (profile : Option ExecutionProfile) :
    RoutingPolicy :=
  let policy : RoutingPolicy :=
    { profile := profile
      costAware := runtime.costAware
      maxPricePerMtok := config.server.costMaxPerMtok
      latencyAware := runtime.latencyAware
      allowFree := config.server.costAllowFree
      allowPromo := config.server.costAllowPromo
      allowAggregator := config.server.costAllowAggregator
      visionDegrade := config.server.visionDegrade
      unknownCost := config.server.costUnknown
      unknownContext := config.server.contextUnknown
      scorecard := config.server.scorecard
      qualityEval := config.server.qualityEval.toQualityEvalConfig }
  match profile with
  | some .auto => { policy with scoring := some ScoringPolicy.balanced }
  | some .cheap =>
      { policy with
        scoring := some ScoringPolicy.cheap, costAware := true, latencyAware := false }
  | some .fast =>
      { policy with
        scoring := some ScoringPolicy.fast, costAware := false, latencyAware := true }
  | some .coding => { policy with scoring := some ScoringPolicy.coding }
  | some .privateLane =>
      { policy with allowFree := false, allowPromo := false, allowAggregator := false }
  | some .largeContext => { policy with scoring := some ScoringPolicy.largeContext }
  | some .judge => { policy with scoring := some ScoringPolicy.judge }
  | some .extract => { policy with scoring := some ScoringPolicy.extract, costAware := true }
  | none => policy

/-- A request that is refused as it stands. -/
def invalidRequest (status : ℕ) (message : String) : ExecError where
  status := status
  errorType := "invalid_request_error"
  message := message

/-- The one profile that lists the model; two are an error. -/
def inferClientProfileForModel (config : Config) (req : AiRequest) :
    Except ExecError (Option ClientProfileConfig) :=
  let found := config.clientProfiles.filter fun profile => profile.models.contains req.model
  if 1 < found.length then
    let ids := Text.join ", " (found.map fun profile => profile.id)
    .error
      { status := 409, errorType := "ambiguous_client_profile",
        message := s!"model `{req.model}` matches multiple client profiles: {ids}" }
  else .ok found.head?

/-- The checks of a profile that was found. -/
def admitClientProfile (profile : ClientProfileConfig) (req : AiRequest) :
    Except ExecError (Option ClientProfileConfig × AiRequest) :=
  if !profile.enabled then
    .error
      { status := 403, errorType := "client_profile_disabled",
        message := s!"client profile `{profile.id}` is disabled" }
  else
  match (req.metadata.get "client_protocol").filter fun p => p ≠ profile.kind.protocol with
  | some protocol =>
      .error <| invalidRequest 422 <|
        s!"client profile `{profile.id}` expects protocol `{profile.kind.protocol}` " ++
          s!"but request used `{protocol}`"
  | none =>
  if !profile.models.isEmpty && !profile.models.contains req.model then
    .error
      { status := 403, errorType := "client_profile_model_denied",
        message := s!"client profile `{profile.id}` does not allow model `{req.model}`" }
  else
    .ok (some profile,
      { req with
        metadata := (req.metadata.insert "client_profile" profile.id).insert
          "client_profile_mode" profile.mode.asStr })

/-- The profile that a request names, or that its model gives it. -/
def applyRequestClientProfile (config : Config) (req : AiRequest) :
    Except ExecError (Option ClientProfileConfig × AiRequest) :=
  let requested := req.metadata.get "client_profile"
  let fromHeader := req.metadata.get "client_profile_source" == some "header"
  let configured := requested.bind fun id =>
    config.clientProfiles.find? fun profile => profile.id = id
  let inferred : Except ExecError (Option ClientProfileConfig) :=
    if configured.isNone && !fromHeader then inferClientProfileForModel config req else .ok none
  inferred >>= fun inferred =>
    match configured.or inferred with
    | some profile => admitClientProfile profile req
    | none =>
        if fromHeader then
          .error <| invalidRequest 422 <|
            "client profile `" ++ requested.getD "" ++ "` is not configured"
        else .ok (none, req)

/-! ### The candidates of a model -/

/-- The combo that the candidates come from. -/
structure ResolvedCombo where
  name : String
  strategy : ComboStrategy

/-- The candidates of a model, before any tenant is asked. -/
structure CandidateResolution where
  routeName : String
  require : RouteRequire := {}
  candidates : List ExecutionTarget
  unknown : List String := []
  profile : Option ExecutionProfile := none
  combo : Option ResolvedCombo := none

/-- The targets that are known, and the names of the others. -/
def Registry.lookup (registry : Registry) (targets : List String) :
    List ExecutionTarget × List String :=
  (targets.filterMap registry.targetFor, targets.filter fun id => (registry.targetFor id).isNone)

/-- The candidates of a route. -/
def Registry.resolveRouteConfig (registry : Registry) (route : RouteConfig) (routeName : String) :
    CandidateResolution where
  routeName := routeName
  require := route.require
  candidates := (registry.lookup route.targets).1
  unknown := (registry.lookup route.targets).2

/-- The candidates of a model: by its execution profile, its route, its combo, as a target, by the
wildcard route, and at last by the default provider. -/
def resolveRoute (config : Config) (registry : Registry) (model : String) :
    Except ExecError CandidateResolution :=
  match ExecutionProfile.fromModel model with
  | some profile =>
      match (config.exactRouteFor model).or config.wildcardRoute with
      | none =>
          .error <| invalidRequest 404 <|
            s!"execution profile `{profile.id}` needs a matching route or catch-all `*` route"
      | some route =>
          let routeName :=
            if route.matchModel = some model then route.name
            else s!"{profile.id} via {route.name}"
          .ok { registry.resolveRouteConfig route routeName with profile := some profile }
  | none =>
  match config.exactRouteFor model with
  | some route => .ok (registry.resolveRouteConfig route route.name)
  | none =>
  match config.comboFor model with
  | some combo =>
      .ok
        { routeName := "combo/" ++ model
          require := combo.require
          candidates := (registry.lookup combo.models).1
          unknown := (registry.lookup combo.models).2
          combo := some { name := model, strategy := combo.strategy } }
  | none =>
  match registry.targetFor model with
  | some target => .ok { routeName := "direct", candidates := [target] }
  | none =>
  match config.wildcardRoute with
  | some route => .ok (registry.resolveRouteConfig route route.name)
  | none =>
  match config.server.defaultProvider with
  | some provider =>
      match registry.targetForProviderModel provider model with
      -- passed through verbatim, so nothing of it is verified
      | some target =>
          .ok { routeName := "default:" ++ provider, candidates := [{ target with unverified := true }] }
      | none =>
          .error <| invalidRequest 404 <|
            s!"default_provider `{provider}` is not a configured provider"
  | none =>
      .error <| invalidRequest 404 <|
        s!"no route or target for model `{model}` — add a route, use `provider/model`, " ++
          "or set server.default_provider"

/-! ### The plan -/

/-- The cursors of the combos. -/
abbrev ComboCursors := OrdMap String ℕ

/-- Rotate the candidates of a round-robin combo to its cursor, which moves on if asked to. -/
def applyComboOrder (comboRr : ComboCursors) (resolved : CandidateResolution)
    (advanceCursor : Bool) : CandidateResolution × ComboCursors :=
  match resolved.combo with
  | none => (resolved, comboRr)
  | some combo =>
      match combo.strategy with
      | .fallback => (resolved, comboRr)
      | .roundRobin =>
          let len := resolved.candidates.length
          if len ≤ 1 then (resolved, comboRr)
          else
            let cursor := (comboRr.get combo.name).getD 0
            let next := if advanceCursor then (cursor + 1) % 2 ^ 64 else cursor
            ({ resolved with candidates := resolved.candidates.rotate (cursor % len) },
              comboRr.insert combo.name next)

/-- An empty list allows every route. -/
def tenantRouteAllowed (tenant : TenantConfig) (routeName : String) : Bool :=
  tenant.allowedRoutes.isEmpty ||
    tenant.allowedRoutes.any fun allowed =>
      allowed = routeName || routeName = "combo/" ++ allowed ||
        (Text.stripSuffix (" via " ++ allowed) routeName).isSome

/-- An empty list allows every provider. -/
def tenantProviderAllowed (tenant : TenantConfig) (providerId : String) : Bool :=
  tenant.allowedProviders.isEmpty || tenant.allowedProviders.contains providerId

/-- Is one of the allowed accounts configured? -/
def hasAccount (resolver : CredentialResolver) (allowed : List String) (providerId : String) :
    Bool :=
  ((resolver.accountsOf providerId).map Account.id).any fun id => allowed.contains id

/-- Some account of the tenant serves the candidate. -/
def tenantCandidateHasAccount (resolver : CredentialResolver) (tenant : TenantConfig)
    (candidate : ExecutionTarget) : Bool :=
  tenant.allowedAccounts.isEmpty ||
    hasAccount resolver (tenantAllowedAccounts tenant.toTenantConfig candidate.providerId)
      candidate.providerId

/-- Some account of the profile serves the candidate. -/
def clientProfileCandidateHasAccount (resolver : CredentialResolver)
    (profile : ClientProfileConfig) (candidate : ExecutionTarget) : Bool :=
  profile.accounts.isEmpty ||
    hasAccount resolver (profileAccountsForProvider profile.toClientProfileConfig
      candidate.providerId) candidate.providerId

/-- Why the tenant may not use a candidate. -/
def tenantRejection (resolver : CredentialResolver) (tenant : TenantConfig)
    (candidate : ExecutionTarget) : Option String :=
  if !tenantProviderAllowed tenant candidate.providerId then
    some ("tenant policy: provider `" ++ candidate.providerId ++ "` is not allowed")
  else if !tenantCandidateHasAccount resolver tenant candidate then
    some "tenant policy: no allowed account for provider"
  else none

/-- Why the profile may not use a candidate. -/
def profileRejection (resolver : CredentialResolver) (profile : ClientProfileConfig)
    (candidate : ExecutionTarget) : Option String :=
  if clientProfileCandidateHasAccount resolver profile candidate then none
  else
    some ("client profile `" ++ profile.id ++ "`: no pinned account for provider `" ++
      candidate.providerId ++ "`")

/-- The candidates that are kept, and the evidence of the others. -/
def retain (reject : ExecutionTarget → Option String) (candidates : List ExecutionTarget) :
    List ExecutionTarget × List RejectedCandidate :=
  (candidates.filter fun c => (reject c).isNone,
    candidates.filterMap fun c => (reject c).map fun reason => ⟨c.id, reason⟩)

/-- What the combo, the tenant and the profile add to a decision. -/
def annotate (decision : RouteDecision) (combo : Option ResolvedCombo)
    (tenant : Option TenantConfig) (profile : Option ClientProfileConfig)
    (rejected : List RejectedCandidate) : RouteDecision :=
  let decision :=
    match combo with
    | none => decision
    | some combo =>
        { decision with
          strategy := match combo.strategy with
            | .fallback => "combo_fallback"
            | .roundRobin => "combo_round_robin" }.addReasons
          ["combo=" ++ combo.name, "combo_strategy=" ++ combo.strategy.asStr]
  let decision := decision.addReasons (tenant.map fun tenant => "tenant=" ++ tenant.id).toList
  let decision := decision.addReasons <| profile.elim [] fun profile =>
    ["client_profile=" ++ profile.id, "client_profile_mode=" ++ profile.mode.asStr]
  { decision with rejected := decision.rejected ++ rejected }

/-- The plan for resolved candidates: the tenant and the profile filter them before the router. -/
def planResolvedRoute (comboRr : ComboCursors) (config : Config) (runtime : Runtime)
    (resolver : CredentialResolver) (req : AiRequest) (profile : Option ClientProfileConfig)
    (resolved : CandidateResolution) (advanceComboCursor : Bool) :
    Except ExecError (String × RoutePlan) × ComboCursors :=
  let (resolved, comboRr) := applyComboOrder comboRr resolved advanceComboCursor
  let routeName := resolved.routeName
  let tenant := req.tenant.bind config.tenant
  match tenant.filter fun tenant => !tenantRouteAllowed tenant routeName with
  | some tenant =>
      (.error
        { status := 403, errorType := "tenant_policy_denied",
          message := s!"tenant `{tenant.id}` is not allowed to use route `{routeName}`" },
        comboRr)
  | none =>
      let (candidates, tenantRejections) := tenant.elim (resolved.candidates, []) fun tenant =>
        retain (tenantRejection resolver tenant) resolved.candidates
      let (candidates, profileRejections) := profile.elim (candidates, []) fun profile =>
        if profile.accounts.isEmpty then (candidates, [])
        else retain (profileRejection resolver profile) candidates
      let policy := routingPolicy config runtime resolved.profile
      let plan := planRoute req routeName resolved.require candidates policy
      (.ok (routeName,
        { plan with
          decision := annotate plan.decision resolved.combo tenant profile
            (tenantRejections ++ profileRejections) }),
        comboRr)

end Profiles

end Switchback
