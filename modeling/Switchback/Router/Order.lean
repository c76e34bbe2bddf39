import Mathlib.Data.List.Sort
import Switchback.Router.Checks

/-!
# Scores and the order of the survivors

Survivors are never dropped after the hard filter: they are partitioned by demotion rank, and
each rank is ordered by the strategy of the policy and by a tie-break on outcome evidence.
-/

namespace Switchback

open Lib

namespace Router

/-! ### Factors -/

def f64Epsilon : F64 := Fp.round false 1 (2 ^ 52)

def one : F64 := Fp.ofNat 1

/-- Whether tags or id speak of code. -/
def isCodingTarget (target : ExecutionTarget) : Bool :=
  let hasTag := (target.taskTags ++ target.policyTags).any fun tag =>
    ["coding", "code", "coder"].contains (Text.toAsciiLowercase tag)
  let id := Text.toAsciiLowercase target.id
  hasTag || Text.contains "coding" id || Text.contains "coder" id || Text.contains "code" id

/-- From 1 for the first down to 0 for the last. -/
def rankFactor (index len : ℕ) : F64 :=
  if len ≤ 1 then one else one - Fp.ofNat index / Fp.ofNat (len - 1)

/-- 1 from four healthy accounts on, a half where their number is not known. -/
def accountAvailabilityFactor (target : ExecutionTarget) : F64 :=
  match target.healthyAccounts with
  | some 0 => Fp.zero
  | some n => Fp.min (Fp.ofNat n / Fp.ofNat 4) one
  | none => Fp.ofDecimal 5 1

def healthFactor : HealthState → F64
  | .healthy => one
  | .degraded => Fp.ofDecimal 5 1
  | .down => Fp.zero

/-- 1 at the least value, 0 at the greatest and for an unknown one. -/
def inverseRangeFactor (value min max : Option F64) : F64 :=
  match value, min, max with
  | none, _, _ => Fp.zero
  | some value, some min, some max =>
      if Fp.lt (Fp.abs (max - min)) f64Epsilon then one
      else Fp.clamp ((max - value) / (max - min)) Fp.zero one
  | some _, _, _ => one

/-- The least and the greatest known value. -/
def rangeBounds (values : List (Option F64)) : Option F64 × Option F64 :=
  values.reduceOption.foldl
    (fun b v => (some (b.1.elim v fun m => Fp.min m v), some (b.2.elim v fun m => Fp.max m v)))
    (none, none)

/-- One request's shared response-quality comparison. -/
structure QualityContext where
  baseline : F64
  qualifiedFactors : OrdMap String F64

namespace QualityContext

/-- The candidates whose quality evidence is fresh and large enough. -/
def qualified (candidates : List ExecutionTarget) (policy : RoutingPolicy) :
    List (ExecutionTarget × QualitySignal) :=
  candidates.filterMap fun target =>
    (target.quality.filter fun q =>
      decide (q.ageSecs ≤ policy.scorecard.window.ttlSecs) &&
        decide (policy.qualityEval.routingMinSamples ≤ q.samples)).map fun q => (target, q)

def new (candidates : List ExecutionTarget) (policy : RoutingPolicy) : Option QualityContext :=
  let config := policy.qualityEval
  if policy.scoring.isNone || !config.enabled || Fp.le config.routingWeight Fp.zero then none
  else
    let qualified := qualified candidates policy
    if qualified.length < 2 then none
    else
      let baseline := (qualified.map fun p => p.2.ewma).foldl (· + ·) Fp.zero /
        Fp.ofNat qualified.length
      some
        { baseline := baseline
          qualifiedFactors := OrdMap.ofList (qualified.map fun p =>
            let confidence := Fp.min
              (Fp.ofNat p.2.samples / Fp.ofNat config.routingFullConfidenceSamples) one
            (p.1.id, baseline + confidence * (p.2.ewma - baseline))) }

def factor (q : QualityContext) (targetId : String) : F64 :=
  (q.qualifiedFactors.get targetId).getD q.baseline

end QualityContext

/-- The weighted mean of the factors. -/
def weightedScore (factors : OrdMap String F64) (scoring : ScoringPolicy)
    (outcomeWeight qualityWeight : F64) : F64 :=
  let weightOf (factor : String) : F64 :=
    if factor = "outcome_health" then outcomeWeight
    else if factor = "response_quality" then qualityWeight
    else scoring.weightFor factor
  let (weighted, total) := factors.entries.foldl
    (fun acc p =>
      let weight := weightOf p.1
      if Fp.le weight Fp.zero then acc else (acc.1 + weight * p.2, acc.2 + weight))
    (Fp.zero, Fp.zero)
  if Fp.le total f64Epsilon then Fp.zero else Fp.clamp (weighted / total) Fp.zero one

/-- The latency that ranks a target: the first token when the client streams. -/
def latencySignal (streamingRequired : Bool) (target : ExecutionTarget) : Option F64 :=
  if streamingRequired then target.ttftEwmaMs.or target.latencyEwmaMs else target.latencyEwmaMs

/-- The score receipt of a candidate list. -/
def routeScores (candidates : List ExecutionTarget) (policy : RoutingPolicy)
    (streamingRequired : Bool) (qualityContext : Option QualityContext) : List RouteScore :=
  let costBounds := rangeBounds (candidates.map fun t => t.cost.map CostProfile.blendedPerMtok)
  let latencyBounds := rangeBounds (candidates.map (latencySignal streamingRequired))
  let maxContext := (candidates.filterMap fun t => t.capabilities.maxContextTokens).max?
  let anyOutcomeEvidence := policy.scorecard.enabled && candidates.any fun t => t.outcome.isSome
  candidates.mapIdx fun index target =>
    let rank := rankFactor index candidates.length
    let factors := OrdMap.ofList
      [("selection_rank", rank),
        ("health", healthFactor target.health),
        ("account_availability", accountAvailabilityFactor target),
        ("cost", target.cost.elim Fp.zero fun cost =>
          inverseRangeFactor (some cost.blendedPerMtok) costBounds.1 costBounds.2),
        ("latency", inverseRangeFactor target.latencyEwmaMs latencyBounds.1 latencyBounds.2),
        ("ttft", inverseRangeFactor (target.ttftEwmaMs.or target.latencyEwmaMs)
          latencyBounds.1 latencyBounds.2),
        ("task_fit", if isCodingTarget target then one else Fp.zero),
        ("context_fit", match maxContext with
          | some m => target.capabilities.maxContextTokens.elim Fp.zero fun n =>
              Fp.ofNat n / Fp.ofNat m
          | none => Fp.zero)]
    -- no outcome factor at all unless some candidate has evidence
    let factors :=
      if anyOutcomeEvidence then
        factors.insert "outcome_health" (target.outcome.elim one fun o => o.healthFactor.convert)
      else factors
    let factors := qualityContext.elim factors fun q =>
      factors.insert "response_quality" (q.factor target.id)
    { targetId := target.id
      score := policy.scoring.elim rank fun scoring =>
        weightedScore factors scoring policy.scorecard.scoreWeight
          policy.qualityEval.routingWeight
      factors := factors }

/-! ### Reasons -/

def formatPct (rate : F32) : String := (rate * Fp.ofNat 100).toFixed 1 ++ "%"

def formatLatencyHumanized (ms : ℕ) : String :=
  if 1000 ≤ ms then ((Fp.ofNat ms : F64) / Fp.ofNat 1000).toFixed 1 ++ "s"
  else toString ms ++ "ms"

def formatCpsDollars (micros : ℕ) : String :=
  "$" ++ ((Fp.ofNat micros : F64) / Fp.ofNat 1000000).toFixed 4

def formatOutcomeSelect (targetId : String) (o : OutcomeSignal) : String :=
  "outcome/select target=" ++ targetId ++ " ok=" ++ formatPct o.successRate ++ " p50=" ++
    formatLatencyHumanized o.p50LatencyMs ++ " p95=" ++ formatLatencyHumanized o.p95LatencyMs ++
    " n=" ++ toString o.samples ++
    if 0 < o.costPerSuccessMicros then " cps=" ++ formatCpsDollars o.costPerSuccessMicros else ""

def demoteReasonCode (o : OutcomeSignal) : String :=
  match o.demoteTrigger with
  | some .truncation => "truncation"
  | some .streak => "streak"
  | some .success | none => "success"

def formatOutcomeDemote (targetId : String) (o : OutcomeSignal) : String :=
  "outcome/demote target=" ++ targetId ++ " reason=" ++ demoteReasonCode o ++ " ok=" ++
    formatPct o.successRate ++ " trunc=" ++ formatPct o.truncationRate ++ " n=" ++
    toString o.samples ++ " tier=demoted" ++
    (if o.demoteTrigger = some .streak then " fails=" ++ toString o.consecutiveFailures else "") ++
    o.dominantError.elim "" fun e => " err=" ++ e.asStr

def formatQualityReason (target : ExecutionTarget) (policy : RoutingPolicy)
    (context : Option QualityContext) : Option String := do
  guard policy.qualityEval.enabled
  let q ← target.quality
  guard (q.ageSecs ≤ policy.scorecard.window.ttlSecs)
  let head := "outcome/quality target=" ++ target.id ++ " q=" ++ q.ewma.toFixed 3 ++ " n=" ++
    toString q.samples ++ " age=" ++ toString q.ageSecs ++ "s rubric=quality-v1 mode="
  some (match context with
    | some ctx => head ++ "score factor=" ++ (ctx.factor target.id).toFixed 3 ++ " weight=" ++
        policy.qualityEval.routingWeight.toFixed 3
    | none => head ++ "observe")

/-! ### Ordering -/

/-- 2 when no account of the pool is usable, 1 when the scorecard demotes the target. -/
def demoteRank (target : ExecutionTarget) : ℕ :=
  if target.healthyAccounts = some 0 then 2
  else if target.outcome.any fun o => o.tier = .demoted then 1
  else 0

/-- A stable sort by a comparison. -/
def sortBy (cmp : ExecutionTarget → ExecutionTarget → Ordering) (l : List ExecutionTarget) :
    List ExecutionTarget :=
  l.insertionSort fun a b => cmp a b ≠ .gt

/-- A partial comparison with incomparable operands taken as equal. -/
def cmpOrEq (x y : F64) : Ordering := (Fp.partialCmp x y).getD .eq

/-- Compare prices; an unpriced target comes last. -/
def costCmp (a b : ExecutionTarget) : Ordering :=
  match a.cost.map CostProfile.blendedPerMtok, b.cost.map CostProfile.blendedPerMtok with
  | some x, some y => cmpOrEq x y
  | some _, none => .lt
  | none, some _ => .gt
  | none, none => .eq

/-- Compare latencies; an unmeasured target comes first. -/
def latencyCmp (streamingRequired : Bool) (a b : ExecutionTarget) : Ordering :=
  match latencySignal streamingRequired a, latencySignal streamingRequired b with
  | some x, some y => cmpOrEq x y
  | none, some _ => .lt
  | some _, none => .gt
  | none, none => .eq

def outcomeHealth (target : ExecutionTarget) : F32 :=
  target.outcome.elim Fp.zero OutcomeSignal.healthFactor

/-- Reorder one run of peers by outcome health, when every peer has enough evidence. -/
def tiebreakRun (minSamples : ℕ) (run : List ExecutionTarget) :
    List ExecutionTarget × List String :=
  if 1 < run.length &&
      run.all fun t => t.outcome.any fun o => decide (minSamples ≤ o.samples) then
    let after := sortBy (fun a b =>
      (Fp.partialCmp (outcomeHealth b) (outcomeHealth a)).getD .eq) run
    if run.map ExecutionTarget.id = after.map ExecutionTarget.id then (after, [])
    else
      match after with
      | [] => ([], [])
      | winner :: rest => (winner :: rest,
          ["outcome/tiebreak target=" ++ winner.id ++ " health=" ++
            (outcomeHealth winner).toFixed 3 ++ " over=" ++
            Text.join "," (rest.map ExecutionTarget.id)])
  else (run, [])

/-- Tie-break every maximal run of adjacent peers that `sameGroup` puts with its first member. -/
def tiebreakRuns (minSamples : ℕ) (sameGroup : ExecutionTarget → ExecutionTarget → Bool) :
    ℕ → List ExecutionTarget → List ExecutionTarget × List String
  | 0, l => (l, [])
  | _ + 1, [] => ([], [])
  | fuel + 1, t :: l =>
      let run := tiebreakRun minSamples (t :: l.takeWhile (sameGroup t))
      let rest := tiebreakRuns minSamples sameGroup fuel (l.dropWhile (sameGroup t))
      (run.1 ++ rest.1, run.2 ++ rest.2)

/-- There are at most as many runs as survivors. -/
def applyOutcomeTiebreak (survivors : List ExecutionTarget) (minSamples : ℕ)
    (sameGroup : ExecutionTarget → ExecutionTarget → Bool) :
    List ExecutionTarget × List String :=
  tiebreakRuns minSamples sameGroup survivors.length survivors

/-- Strategy order and tie-break of one demotion rank. -/
def orderPartition (part : List ExecutionTarget) (policy : RoutingPolicy)
    (streamingRequired : Bool) (scoreByTarget : Option (OrdMap String F64)) :
    List ExecutionTarget × List String :=
  let minSamples := policy.scorecard.demotion.minSamples
  match scoreByTarget with
  | some scores =>
      let score (t : ExecutionTarget) : F64 := (scores.get t.id).getD Fp.zero
      (sortBy (fun a b => cmpOrEq (score b) (score a)) part, [])
  | none =>
      if policy.profile = some .coding then
        applyOutcomeTiebreak
          (sortBy (fun a b =>
            compare (!isCodingTarget a).toNat (!isCodingTarget b).toNat) part)
          minSamples fun a b => isCodingTarget a == isCodingTarget b
      else if policy.profile = some .largeContext then
        let context (t : ExecutionTarget) : ℕ := t.capabilities.maxContextTokens.getD 0
        applyOutcomeTiebreak (sortBy (fun a b => compare (context b) (context a)) part)
          minSamples fun a b => context a = context b
      else if policy.costAware then
        applyOutcomeTiebreak (sortBy costCmp part) minSamples fun a b => costCmp a b = .eq
      else if policy.latencyAware then
        applyOutcomeTiebreak (sortBy (latencyCmp streamingRequired) part) minSamples
          fun a b => latencyCmp streamingRequired a b = .eq
      else applyOutcomeTiebreak part minSamples fun _ _ => true

/-- The length of the first part of a partitioned list. -/
def partitionPoint (p : ExecutionTarget → Bool) (l : List ExecutionTarget) : ℕ :=
  (l.takeWhile p).length

/-- The targets the scorecard demotes, with their evidence. -/
def scorecardDemoted (survivors : List ExecutionTarget) : List (String × OutcomeSignal) :=
  (survivors.filter fun c => c.healthyAccounts ≠ some 0).filterMap fun c =>
    (c.outcome.filter fun o => o.tier = .demoted).map fun o => (c.id, o)

def noAccountDemoted (survivors : List ExecutionTarget) : ℕ :=
  (survivors.filter fun c => c.healthyAccounts = some 0).length

/-- Demotion ranks first, then strategy order and tie-break within each rank. -/
def orderSurvivors (survivors : List ExecutionTarget) (policy : RoutingPolicy)
    (streamingRequired : Bool) (scoreByTarget : Option (OrdMap String F64)) :
    List ExecutionTarget × List String :=
  let survivors :=
    if 0 < noAccountDemoted survivors || !(scorecardDemoted survivors).isEmpty then
      sortBy (fun a b => compare (demoteRank a) (demoteRank b)) survivors
    else survivors
  let end0 := partitionPoint (fun t => demoteRank t = 0) survivors
  let end1 := end0 + partitionPoint (fun t => demoteRank t = 1) (survivors.drop end0)
  let part0 := survivors.take end0
  let rest := survivors.drop end0
  let part1 := rest.take (end1 - end0)
  let part2 := rest.drop (end1 - end0)
  let ordered := [part0, part1, part2].map fun part =>
    orderPartition part policy streamingRequired scoreByTarget
  (ordered.flatMap Prod.fst, ordered.flatMap Prod.snd)

/-- The strategy's own line about the final winner. -/
def strategySummaryReason (policy : RoutingPolicy) (selected : Option ExecutionTarget)
    (streamingRequired : Bool) (scoreByTarget : Option (OrdMap String F64)) :
    Option String := do
  let selected ← selected
  match scoreByTarget with
  | some scores =>
      some ("score: selected=" ++ selected.id ++ " score=" ++
        ((scores.get selected.id).getD Fp.zero).toFixed 3)
  | none =>
      if policy.profile = some .coding then
        some ("auto/coding: selected=" ++ selected.id ++ " fit=" ++
          if isCodingTarget selected then "coding" else "unclassified")
      else if policy.profile = some .largeContext then
        some ("auto/large-context: widest=" ++ selected.id ++ " context=" ++
          selected.capabilities.maxContextTokens.elim "unknown" toString)
      else if policy.costAware then
        some ("cost_aware: cheapest=" ++ selected.id ++ " blended=" ++
          selected.cost.elim "unpriced" fun c => c.blendedPerMtok.toFixed 2 ++ "/Mtok")
      else if policy.latencyAware then
        some ("latency_aware: fastest=" ++ selected.id ++ " " ++
          (if streamingRequired then "ttft" else "latency") ++ "=" ++
          (latencySignal streamingRequired selected).elim "unmeasured" fun ms =>
            ms.toFixed 0 ++ "ms")
      else none

/-! ### Ordering permutes -/

theorem sortBy_perm (cmp : ExecutionTarget → ExecutionTarget → Ordering)
    (l : List ExecutionTarget) : (sortBy cmp l).Perm l :=
  List.perm_insertionSort _ l

theorem tiebreakRun_perm (minSamples : ℕ) (run : List ExecutionTarget) :
    (tiebreakRun minSamples run).1.Perm run := by
  unfold tiebreakRun
  split
  · dsimp only
    split
    · exact sortBy_perm _ run
    · have hperm := sortBy_perm (fun a b =>
        (Fp.partialCmp (outcomeHealth b) (outcomeHealth a)).getD .eq) run
      split
      · rename_i h
        rwa [h] at hperm
      · rename_i h
        rwa [h] at hperm
  · exact List.Perm.refl _

theorem tiebreakRuns_perm (minSamples : ℕ)
    (sameGroup : ExecutionTarget → ExecutionTarget → Bool) (fuel : ℕ)
    (l : List ExecutionTarget) : (tiebreakRuns minSamples sameGroup fuel l).1.Perm l := by
  induction fuel generalizing l with
  | zero => exact List.Perm.refl _
  | succ fuel ih =>
    cases l with
    | nil => exact List.Perm.refl _
    | cons t l =>
      have hrun := tiebreakRun_perm minSamples (t :: l.takeWhile (sameGroup t))
      have hrest := ih (l.dropWhile (sameGroup t))
      have happend := hrun.append hrest
      rwa [List.cons_append, List.takeWhile_append_dropWhile] at happend

theorem orderPartition_perm (part : List ExecutionTarget) (policy : RoutingPolicy)
    (streamingRequired : Bool) (scoreByTarget : Option (OrdMap String F64)) :
    (orderPartition part policy streamingRequired scoreByTarget).1.Perm part := by
  have htie (l : List ExecutionTarget) (n : ℕ)
      (sameGroup : ExecutionTarget → ExecutionTarget → Bool) :
      (applyOutcomeTiebreak l n sameGroup).1.Perm l := tiebreakRuns_perm n sameGroup _ l
  cases scoreByTarget with
  | some scores => exact sortBy_perm _ part
  | none =>
    simp only [orderPartition]
    split_ifs
    · exact (htie _ _ _).trans (sortBy_perm _ part)
    · exact (htie _ _ _).trans (sortBy_perm _ part)
    · exact (htie _ _ _).trans (sortBy_perm _ part)
    · exact (htie _ _ _).trans (sortBy_perm _ part)
    · exact htie _ _ _

/-- **Ordering neither loses nor duplicates a survivor.** -/
theorem orderSurvivors_perm (survivors : List ExecutionTarget) (policy : RoutingPolicy)
    (streamingRequired : Bool) (scoreByTarget : Option (OrdMap String F64)) :
    (orderSurvivors survivors policy streamingRequired scoreByTarget).1.Perm survivors := by
  -- the three ranks, ordered one by one, are the sorted list cut at two places
  have hparts (l : List ExecutionTarget) (i j : ℕ) :
      (([l.take i, (l.drop i).take j, (l.drop i).drop j].map fun part =>
        orderPartition part policy streamingRequired scoreByTarget).flatMap Prod.fst).Perm l := by
    have h := ((orderPartition_perm (l.take i) policy streamingRequired scoreByTarget).append
      ((orderPartition_perm ((l.drop i).take j) policy streamingRequired scoreByTarget).append
        (orderPartition_perm ((l.drop i).drop j) policy streamingRequired scoreByTarget)))
    rw [List.take_append_drop, List.take_append_drop] at h
    simpa using h
  unfold orderSurvivors
  refine (hparts _ _ _).trans ?_
  split_ifs
  · exact sortBy_perm _ survivors
  · exact List.Perm.refl _

end Router

end Switchback
