import Switchback.Runtime.Execute
import Switchback.Runtime.Vision

/-!
# From a request to its plan

The front half of the execution core: the spend caps, the compression of tool results, the plugins
before routing, the client profile, the candidates and their plan.  Each refusal is traced where it
is made.
-/

namespace Switchback

open Lib Router

/-! ### What is traced -/

/-- What a trace tells of a request beside its route and its attempts. -/
structure TraceRecord where
  requestId : String
  tenant : Option String
  project : Option String
  inboundModel : String
  finalStatus : ℕ
  streamed : Bool
  deriving DecidableEq

inductive TraceCall where
  /-- To the store, if there is one, and to the log. -/
  | recordTrace (record : TraceRecord)
  /-- To the log only. -/
  | logTrace (record : TraceRecord)

def TraceCall.record : TraceCall → TraceRecord
  | .recordTrace record | .logTrace record => record

def AiRequest.traceRecord (req : AiRequest) (status : ℕ) (streamed : Bool) : TraceRecord where
  requestId := req.id
  tenant := req.tenant
  project := req.project
  inboundModel := req.model
  finalStatus := status
  streamed := streamed

/-- The trace of a request that is refused before routing. -/
def recordDenialTrace (req : AiRequest) (error : ExecError) : TraceCall :=
  .recordTrace (req.traceRecord error.status req.stream)

/-! ### What is read -/

inductive PluginOutcome where
  | proceed
  | reject (status : ℕ) (message : String)

/-- The candidates of a model, and the names that no target has. -/
structure CandidateResolution where
  candidates : List ExecutionTarget
  unknown : List String := []

/-- A state of the ledger that a spend is read in. -/
structure Reading where
  ledger : UsageLedger := .inMemory
  fault : Option StoreError := none

/-- What the front half reads.  The plugins and the routing functions are parameters. -/
structure Ingress where
  snap : Snapshot
  storeRequired : Bool := false
  budgetMaxUsd : Option F64 := none
  tenantBudgetUsd : String → Option F64 := fun _ => none
  compressToolResults : Bool := false
  compressRequest : AiRequest → AiRequest := id
  preRoute : AiRequest → PluginOutcome × AiRequest := fun req => (.proceed, req)
  applyRequestClientProfile :
      AiRequest → Except ExecError (Option ClientProfileConfig × AiRequest) :=
    fun req => .ok (none, req)
  resolveCandidates : String → Except ExecError CandidateResolution
  planResolvedRoute :
      AiRequest → Option ClientProfileConfig → CandidateResolution → Except ExecError RoutePlan
  fromStr : String → Except String Json

/-- The refusal of a spend cap: the store cannot be read, or the spend has reached the cap. -/
def overBudget (cap : Option F64) (spend : Except String F64) (errorType : String)
    (message : String → String → String) : Option ExecError :=
  match cap, spend with
  | none, _ => none
  | some _, .error e =>
      some
        { status := 503, errorType := "usage_store_unavailable",
          message := "usage store unavailable for budget check: " ++ e }
  | some cap, .ok spent =>
      if Fp.le cap spent then
        some
          { status := 402, errorType := errorType,
            message := message (spent.toFixed 4) (cap.toFixed 4) }
      else none

namespace Ingress

variable (g : Ingress)

def overGlobalBudget (r : Reading) : Option ExecError :=
  overBudget g.budgetMaxUsd (Engine.globalSpendUsd r.ledger g.storeRequired r.fault)
    "budget_exceeded" fun spent cap => s!"budget exceeded: spent ${spent} of ${cap} cap"

def overTenantBudget (tenant : Option String) (r : Reading) : Option ExecError :=
  tenant.bind fun tenant =>
    overBudget (g.tenantBudgetUsd tenant)
      (Engine.tenantSpendUsd r.ledger g.storeRequired r.fault tenant) "tenant_budget_exceeded"
      fun spent cap => "tenant `" ++ tenant ++
        s!"` budget exceeded: spent ${spent} of ${cap} cap"

end Ingress

def RouteDecision.summary (d : RouteDecision) : String :=
  let selected := (d.selected.map TargetRef.targetId).getD "none"
  let fallbacks := Text.join "," (d.fallbacks.map TargetRef.targetId)
  let degraded :=
    if d.capabilityFallback.isEmpty then ""
    else " capability_fallback=[" ++
      Text.join "," (d.capabilityFallback.map fun f => f.capability ++ ":" ++ f.action) ++ "]"
  s!"strategy={d.strategy} selected={selected} fallbacks=[{fallbacks}] " ++
    s!"rejected={d.rejected.length}" ++ degraded

/-! ### The front half -/

inductive Admitted where
  | denied (req : AiRequest) (error : ExecError)
  | planned (c : Call)

def Admitted.req : Admitted → AiRequest
  | .denied req _ => req
  | .planned c => c.req

/-- Trace the refusal and end the request. -/
def deny (req : AiRequest) (error : ExecError) : Admitted × List TraceCall :=
  (.denied req error, [recordDenialTrace req error])

/-- The targets that a scope keeps, and the others. -/
def CandidateResolution.scoped (resolved : CandidateResolution) (scope : Option (List String)) :
    CandidateResolution × List ExecutionTarget :=
  match scope with
  | none => (resolved, [])
  | some allowed =>
      let (kept, others) := resolved.candidates.partition fun c => allowed.contains c.id
      ({ resolved with candidates := kept }, others)

/-- The call under a plan. -/
def Ingress.plannedCall (g : Ingress) (scope : Option (List String)) (req : AiRequest)
    (profile : Option ClientProfileConfig) (plan : RoutePlan) (unknown : List String) : Call where
  snap := g.snap
  req := degrade plan req
  clientProfile := profile
  scope := scope
  storeRequired := g.storeRequired
  candidates := plan.candidates
  rejected := plan.decision.rejected
  unknown := unknown
  summary := plan.decision.summary
  fromStr := g.fromStr

/-- A target that the scope left out is rejected. -/
def rejectScoped (plan : RoutePlan) (others : List ExecutionTarget) : RoutePlan :=
  { plan with
    decision :=
      { plan.decision with
        rejected := plan.decision.rejected ++ others.map fun c =>
          { targetId := c.id
            reason := "quality_eval scope: target not body-allowlisted" } } }

/-- The front half; `global` and `tenant` are the states of the ledger at the two spend checks. -/
def planRequest (g : Ingress) (scope : Option (List String)) (req : AiRequest)
    (global tenant : Reading) : Admitted × List TraceCall :=
  match g.overGlobalBudget global with
  | some error => deny req error
  | none =>
  match g.overTenantBudget req.tenant tenant with
  | some error => deny req error
  | none =>
  let req := if g.compressToolResults then g.compressRequest req else req
  -- a plugin may change the request also where it rejects it
  match g.preRoute req with
  | (.reject status message, req) =>
      deny req { status := status, errorType := "plugin_rejected", message := message }
  | (.proceed, req) =>
  -- a refused profile leaves the request as it was
  match g.applyRequestClientProfile req with
  | .error error => deny req error
  | .ok (profile, req) =>
  match g.resolveCandidates req.model with
  | .error error => deny req error
  | .ok resolved =>
  let (resolved, others) := resolved.scoped scope
  match g.planResolvedRoute req profile resolved with
  | .error error => deny req error
  | .ok plan =>
      (.planned (g.plannedCall scope req profile (rejectScoped plan others) resolved.unknown), [])

/-- **A refusal is traced once, with its own request; a plan is not traced yet.** -/
theorem planRequest_calls (g : Ingress) (scope : Option (List String)) (req : AiRequest)
    (global tenant : Reading) :
    (∃ req' error, planRequest g scope req global tenant =
      (.denied req' error, [recordDenialTrace req' error])) ∨
    ∃ c, planRequest g scope req global tenant = (.planned c, []) := by
  unfold planRequest
  split
  · exact Or.inl ⟨_, _, rfl⟩
  split
  · exact Or.inl ⟨_, _, rfl⟩
  dsimp only
  split
  · exact Or.inl ⟨_, _, rfl⟩
  split
  · exact Or.inl ⟨_, _, rfl⟩
  split
  · exact Or.inl ⟨_, _, rfl⟩
  split
  · exact Or.inl ⟨_, _, rfl⟩
  · exact Or.inr ⟨_, rfl⟩

end Switchback
