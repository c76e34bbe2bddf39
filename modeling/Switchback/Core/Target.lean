import Switchback.Core.Ir

/-!
# Targets, routing policy and the route decision

A target with its capabilities, its price and the live evidence stamped on it; the policy and the
needs that planning reads; and the decision that explains a plan.
-/

namespace Switchback

open Lib

/-! ### Targets -/

/-- What runs a request. -/
inductive ExecutionTargetKind where
  | modelApi
  | openAiCompatibleApi
  | localRuntime
  | codingAgent
  | mcpTool
  | remoteAgent
  | gateway
  | fallbackGroup
  deriving DecidableEq

/-- What a target can do. -/
structure CapabilityProfile where
  textIn : Bool := true
  textOut : Bool := true
  visionIn : Bool := false
  visionSources : List ImageSourceKind := []
  streaming : Bool := true
  toolCalling : Bool := true
  parallelToolCalls : Bool := false
  serverTools : Bool := false
  serverToolProtocols : List ServerToolProtocol := []
  audioIn : Bool := false
  fileIn : Bool := false
  imageOut : Bool := false
  reasoningSummary : Bool := false
  jsonSchema : Bool := false
  maxContextTokens : Option ℕ := none
  maxOutputTokens : Option ℕ := none
  deriving DecidableEq

namespace CapabilityProfile

/-- An empty source list stands for every source. -/
def supportsImageSource (p : CapabilityProfile) (source : ImageSourceKind) : Bool :=
  p.visionIn && (p.visionSources.isEmpty || p.visionSources.contains source)

/-- An empty protocol list stands for every protocol. -/
def supportsServerToolProtocol (p : CapabilityProfile) (protocol : ServerToolProtocol) : Bool :=
  p.serverTools && (p.serverToolProtocols.isEmpty || p.serverToolProtocols.contains protocol)

end CapabilityProfile

/-- Prices per million tokens. -/
structure CostProfile where
  inputPerMtok : F64
  outputPerMtok : F64
  deriving DecidableEq

/-- What a million tokens of each kind cost. -/
def CostProfile.blendedPerMtok (c : CostProfile) : F64 := c.inputPerMtok + c.outputPerMtok

/-- How a target is. -/
inductive HealthState where
  | healthy
  | degraded
  | down
  deriving DecidableEq

/-- Whether a target is kept back for its outcomes. -/
inductive OutcomeTier where
  | healthy
  | demoted
  deriving DecidableEq, Inhabited

/-- What a target was demoted for. -/
inductive DemoteTrigger where
  | success
  | truncation
  | streak
  deriving DecidableEq

/-- Rolling-outcome evidence stamped on a target. -/
structure OutcomeSignal where
  samples : ℕ
  successRate : F32
  p50LatencyMs : ℕ
  p95LatencyMs : ℕ
  costPerSuccessMicros : ℕ
  truncationRate : F32
  dominantError : Option ErrorClass
  tier : OutcomeTier
  healthFactor : F32
  demoteTrigger : Option DemoteTrigger
  consecutiveFailures : ℕ
  deriving DecidableEq, Inhabited

/-- Judged response quality stamped on a target. -/
structure QualitySignal where
  ewma : F64
  samples : ℕ
  ageSecs : ℕ
  evaluatorId : String
  deriving DecidableEq

/-- A concrete place a request can be executed. -/
structure ExecutionTarget where
  id : String
  kind : ExecutionTargetKind := .modelApi
  providerId : String
  model : String
  capabilities : CapabilityProfile := {}
  cost : Option CostProfile := none
  latencyEwmaMs : Option F64 := none
  ttftEwmaMs : Option F64 := none
  policyTags : List String := []
  taskTags : List String := []
  health : HealthState := .healthy
  healthyAccounts : Option ℕ := none
  unverified : Bool := false
  outcome : Option OutcomeSignal := none
  quality : Option QualitySignal := none
  deriving DecidableEq

/-- A target without any evidence. -/
def ExecutionTarget.new (providerId model : String) (kind : ExecutionTargetKind) :
    ExecutionTarget where
  id := providerId ++ "/" ++ model
  kind := kind
  providerId := providerId
  model := model

/-! ### Scorecard and quality knobs -/

/-- How many samples an entry keeps, and for how long. -/
structure ScorecardWindowConfig where
  maxSamples : ℕ := 200
  ttlSecs : ℕ := 86400

/-- When a target is demoted, and when it recovers. -/
structure ScorecardDemotionConfig where
  minSamples : ℕ := 8
  demoteSuccessRate : F64 := Fp.ofDecimal 60 2
  recoverSuccessRate : F64 := Fp.ofDecimal 85 2
  truncDemoteRate : F64 := Fp.ofDecimal 25 2
  fastDemoteStreak : ℕ := 3
  fastRecoverStreak : ℕ := 3

/-- What is taken for granted of a target without samples. -/
structure ScorecardPriorConfig where
  weight : F64 := Fp.ofNat 5
  defaultSuccessRate : F64 := Fp.ofDecimal 95 2

/-- How old an entry may be when it is read back. -/
structure ScorecardPersistConfig where
  staleHydrateSecs : ℕ := 172800

/-- The knobs of the scorecard. -/
structure ScorecardConfig where
  enabled : Bool := true
  window : ScorecardWindowConfig := {}
  demotion : ScorecardDemotionConfig := {}
  prior : ScorecardPriorConfig := {}
  scoreWeight : F64 := Fp.ofDecimal 15 2
  persist : ScorecardPersistConfig := {}

/-- The knobs of the quality sidecar that routing reads. -/
structure QualityEvalConfig where
  enabled : Bool := false
  routingMinSamples : ℕ := 5
  routingFullConfidenceSamples : ℕ := 10
  routingWeight : F64 := Fp.zero

/-! ### Policy -/

/-- The models that stand for a choice of weights. -/
inductive ExecutionProfile where
  | auto
  | cheap
  | fast
  | coding
  | privateLane
  | largeContext
  | judge
  | extract
  deriving DecidableEq

/-- The profile as a model name. -/
def ExecutionProfile.id : ExecutionProfile → String
  | auto => "auto"
  | cheap => "auto/cheap"
  | fast => "auto/fast"
  | coding => "auto/coding"
  | privateLane => "auto/private"
  | largeContext => "auto/large-context"
  | judge => "auto/judge"
  | extract => "auto/extract"

/-- What becomes of a target without a price. -/
inductive UnknownCostPolicy where
  | allow
  | penalize
  | reject
  deriving DecidableEq

/-- What becomes of a target without a context limit. -/
inductive UnknownContextPolicy where
  | allow
  | reject
  deriving DecidableEq

/-- The weights of the factors of a score. -/
structure ScoringPolicy where
  selectionRank : F64 := Fp.zero
  health : F64 := Fp.zero
  accountAvailability : F64 := Fp.zero
  cost : F64 := Fp.zero
  latency : F64 := Fp.zero
  ttft : F64 := Fp.zero
  taskFit : F64 := Fp.zero
  contextFit : F64 := Fp.zero

/-- The weight of a factor. -/
def ScoringPolicy.weightFor (p : ScoringPolicy) : String → F64
  | "selection_rank" => p.selectionRank
  | "health" => p.health
  | "account_availability" => p.accountAvailability
  | "cost" => p.cost
  | "latency" => p.latency
  | "ttft" => p.ttft
  | "task_fit" => p.taskFit
  | "context_fit" => p.contextFit
  | _ => Fp.zero

/-- How the router filters and orders candidates. -/
structure RoutingPolicy where
  profile : Option ExecutionProfile := none
  scoring : Option ScoringPolicy := none
  costAware : Bool := false
  maxPricePerMtok : Option F64 := none
  latencyAware : Bool := false
  allowFree : Bool := true
  allowPromo : Bool := true
  allowAggregator : Bool := true
  visionDegrade : Bool := true
  unknownCost : UnknownCostPolicy := .allow
  unknownContext : UnknownContextPolicy := .allow
  scorecard : ScorecardConfig := {}
  qualityEval : QualityEvalConfig := {}

/-- What a route requires of its targets. -/
structure RouteRequire where
  streaming : Option Bool := none
  toolCalling : Option Bool := none
  serverTools : Option Bool := none
  serverToolProtocols : List ServerToolProtocol := []
  visionIn : Option Bool := none
  visionSources : List ImageSourceKind := []
  audioIn : Option Bool := none
  fileIn : Option Bool := none
  imageOut : Option Bool := none
  reasoningSummary : Option Bool := none
  minContextTokens : Option ℕ := none
  jsonSchema : Option Bool := none

/-! ### The decision -/

/-- A target, and an account of it. -/
structure TargetRef where
  targetId : String
  accountId : Option String := none

/-- A target with the reason it was rejected for. -/
structure RejectedCandidate where
  targetId : String
  reason : String
  deriving DecidableEq

/-- The score of a target with its factors. -/
structure RouteScore where
  targetId : String
  score : F64
  factors : OrdMap String F64

/-- A requirement that was relaxed. -/
structure CapabilityFallback where
  capability : String
  action : String
  detail : String

/-- Why a request went where it went. -/
structure RouteDecision where
  requestId : String
  strategy : String
  profile : Option String := none
  selected : Option TargetRef := none
  fallbacks : List TargetRef := []
  reason : List String := []
  rejected : List RejectedCandidate := []
  scores : List RouteScore := []
  capabilityFallback : List CapabilityFallback := []
  unverified : Bool := false

namespace RouteDecision

/-- One more line of the explanation. -/
def addReason (d : RouteDecision) (r : String) : RouteDecision :=
  { d with reason := d.reason ++ [r] }

/-- More lines of the explanation. -/
def addReasons (d : RouteDecision) (rs : List String) : RouteDecision :=
  { d with reason := d.reason ++ rs }

/-- One more requirement that was relaxed. -/
def addCapabilityFallback (d : RouteDecision) (f : CapabilityFallback) : RouteDecision :=
  { d with capabilityFallback := d.capabilityFallback ++ [f] }

variable (d : RouteDecision)

@[simp] theorem addReason_rejected (r : String) :
    (d.addReason r).rejected = d.rejected := rfl

@[simp] theorem addReasons_rejected (rs : List String) :
    (d.addReasons rs).rejected = d.rejected := rfl

@[simp] theorem addReason_capabilityFallback (r : String) :
    (d.addReason r).capabilityFallback = d.capabilityFallback := rfl

@[simp] theorem addReasons_capabilityFallback (rs : List String) :
    (d.addReasons rs).capabilityFallback = d.capabilityFallback := rfl

@[simp] theorem addCapabilityFallback_rejected (f : CapabilityFallback) :
    (d.addCapabilityFallback f).rejected = d.rejected := rfl

@[simp] theorem addCapabilityFallback_capabilityFallback (f : CapabilityFallback) :
    (d.addCapabilityFallback f).capabilityFallback = d.capabilityFallback ++ [f] := rfl

/-- Did the decision degrade a capability? -/
def degraded (d : RouteDecision) (capability : String) : Bool :=
  d.capabilityFallback.any fun f => f.capability = capability

end RouteDecision

end Switchback
