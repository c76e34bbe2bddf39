import Mathlib.Algebra.BigOperators.Group.List.Basic
import Mathlib.Tactic.Linarith
import Mathlib.Tactic.Ring
import Switchback.Router.OrderLaw

/-!
# The score receipt

A score is computed twice: to rank the survivors, and for the receipt once they are in order.  Here
every score is taken over exact arithmetic, so that the two differ only by the factor that is a
survivor's own position.
-/

namespace Switchback

namespace Router

namespace Exact

open Lib Runs

/-! ### Factors -/

def epsilon : ℚ := 1 / 2 ^ 52

/-- Restrict to the unit interval. -/
def clampUnit (x : ℚ) : ℚ := max 0 (min x 1)

/-- From 1 for the first down to 0 for the last. -/
def rankFactor (index len : ℕ) : ℚ := if len ≤ 1 then 1 else 1 - index / (len - 1 : ℕ)

/-- 1 from four healthy accounts on, a half where their number is not known. -/
def accountAvailabilityFactor (target : ExecutionTarget) : ℚ :=
  match target.healthyAccounts with
  | some 0 => 0
  | some n => min (n / 4) 1
  | none => 1 / 2

def healthFactor : HealthState → ℚ
  | .healthy => 1
  | .degraded => 1 / 2
  | .down => 0

/-- 1 at the least value, 0 at the greatest and for an unknown one. -/
def inverseRangeFactor (value min max : Option ℚ) : ℚ :=
  match value, min, max with
  | none, _, _ => 0
  | some value, some min, some max =>
      if |max - min| < epsilon then 1 else clampUnit ((max - value) / (max - min))
  | some _, _, _ => 1

def rangeBounds (values : List (Option ℚ)) : Option ℚ × Option ℚ :=
  values.reduceOption.foldl
    (fun b v => (some (b.1.elim v fun m => min m v), some (b.2.elim v fun m => max m v)))
    (none, none)

def blendedPerMtok (c : CostProfile) : ℚ := c.inputPerMtok.toRat + c.outputPerMtok.toRat

structure QualityContext where
  baseline : ℚ
  qualifiedFactors : OrdMap String ℚ

namespace QualityContext

def new (candidates : List ExecutionTarget) (policy : RoutingPolicy) : Option QualityContext :=
  let config := policy.qualityEval
  if policy.scoring.isNone || !config.enabled || config.routingWeight.toRat ≤ 0 then none
  else
    let qualified := Router.QualityContext.qualified candidates policy
    if qualified.length < 2 then none
    else
      let baseline := (qualified.map fun p => p.2.ewma.toRat).sum / qualified.length
      some
        { baseline := baseline
          qualifiedFactors := OrdMap.ofList (qualified.map fun p =>
            let confidence := min ((p.2.samples : ℚ) / config.routingFullConfidenceSamples) 1
            (p.1.id, baseline + confidence * (p.2.ewma.toRat - baseline))) }

def factor (q : QualityContext) (targetId : String) : ℚ :=
  (q.qualifiedFactors.get targetId).getD q.baseline

end QualityContext

/-- What a score takes from the whole list. -/
structure Bounds where
  cost : Option ℚ × Option ℚ
  latency : Option ℚ × Option ℚ
  maxContext : Option ℕ
  anyOutcomeEvidence : Bool

def bounds (candidates : List ExecutionTarget) (policy : RoutingPolicy) (streamingRequired : Bool) :
    Bounds where
  cost := rangeBounds (candidates.map fun t => t.cost.map blendedPerMtok)
  latency := rangeBounds (candidates.map fun t =>
    (latencySignal streamingRequired t).map Fp.toRat)
  maxContext := (candidates.filterMap fun t => t.capabilities.maxContextTokens).max?
  anyOutcomeEvidence := policy.scorecard.enabled && candidates.any fun t => t.outcome.isSome

def factors (b : Bounds) (quality : Option QualityContext) (rank : ℚ) (target : ExecutionTarget) :
    OrdMap String ℚ :=
  let factors := OrdMap.ofList
    [("selection_rank", rank),
      ("health", healthFactor target.health),
      ("account_availability", accountAvailabilityFactor target),
      ("cost", target.cost.elim 0 fun cost =>
        inverseRangeFactor (some (blendedPerMtok cost)) b.cost.1 b.cost.2),
      ("latency", inverseRangeFactor (target.latencyEwmaMs.map Fp.toRat) b.latency.1 b.latency.2),
      ("ttft", inverseRangeFactor ((target.ttftEwmaMs.or target.latencyEwmaMs).map Fp.toRat)
        b.latency.1 b.latency.2),
      ("task_fit", if isCodingTarget target then 1 else 0),
      ("context_fit", match b.maxContext with
        | some m => target.capabilities.maxContextTokens.elim 0 fun n => (n : ℚ) / m
        | none => 0)]
  let factors :=
    if b.anyOutcomeEvidence then
      factors.insert "outcome_health" (target.outcome.elim 1 fun o => o.healthFactor.toRat)
    else factors
  quality.elim factors fun q => factors.insert "response_quality" (q.factor target.id)

/-! ### Scores -/

def weightOf (scoring : ScoringPolicy) (policy : RoutingPolicy) (factor : String) : ℚ :=
  if factor = "outcome_health" then policy.scorecard.scoreWeight.toRat
  else if factor = "response_quality" then policy.qualityEval.routingWeight.toRat
  else (scoring.weightFor factor).toRat

/-- The weighted mean of the factors. -/
def weightedScore (factors : OrdMap String ℚ) (weightOf : String → ℚ) : ℚ :=
  let (weighted, total) := factors.entries.foldl
    (fun acc p =>
      if weightOf p.1 ≤ 0 then acc
      else (acc.1 + weightOf p.1 * p.2, acc.2 + weightOf p.1))
    ((0, 0) : ℚ × ℚ)
  if total ≤ epsilon then 0 else clampUnit (weighted / total)

structure RouteScore where
  targetId : String
  score : ℚ
  factors : OrdMap String ℚ

def routeScore (b : Bounds) (policy : RoutingPolicy) (quality : Option QualityContext) (len : ℕ)
    (index : ℕ) (target : ExecutionTarget) : RouteScore :=
  let rank := rankFactor index len
  let factors := factors b quality rank target
  { targetId := target.id
    score := policy.scoring.elim rank fun scoring => weightedScore factors (weightOf scoring policy)
    factors := factors }

/-- The scores of all candidates. -/
def routeScores (candidates : List ExecutionTarget) (policy : RoutingPolicy)
    (streamingRequired : Bool) (quality : Option QualityContext) : List RouteScore :=
  candidates.mapIdx
    (routeScore (bounds candidates policy streamingRequired) policy quality candidates.length)

/-! ### The order -/

/-- The score by which each id is ranked; of several survivors of one id it is that of the last. -/
def ranking (survivors : List ExecutionTarget) (policy : RoutingPolicy) (streaming : Bool) :
    OrdMap String ℚ :=
  OrdMap.ofList ((routeScores survivors policy streaming
    (QualityContext.new survivors policy)).map fun s => (s.targetId, s.score))

def scoreOf (scores : OrdMap String ℚ) (t : ExecutionTarget) : ℚ := (scores.get t.id).getD 0

/-- Rank by rank as declared, each rank sorted by score. -/
def ordered (survivors : List ExecutionTarget) (policy : RoutingPolicy) (streaming : Bool) :
    List ExecutionTarget :=
  [0, 1, 2].flatMap fun r =>
    sortOn (fun t => OrderDual.toDual (scoreOf (ranking survivors policy streaming) t))
      (survivors.filter fun t => demoteRank t = r)

/-- The receipt: the scores of the survivors in their final order. -/
def receipt (survivors : List ExecutionTarget) (policy : RoutingPolicy) (streaming : Bool) :
    List RouteScore :=
  routeScores (ordered survivors policy streaming) policy streaming
    (QualityContext.new survivors policy)

/-- The survivors with their declared positions, in their final order. -/
def orderedPlaces (survivors : List ExecutionTarget) (policy : RoutingPolicy) (streaming : Bool) :
    List (ExecutionTarget × ℕ) :=
  [0, 1, 2].flatMap fun r =>
    sortOn (fun p => OrderDual.toDual (scoreOf (ranking survivors policy streaming) p.1))
      (survivors.zipIdx.filter fun p => demoteRank p.1 = r)

/-- Of two survivors the first has the lower demotion rank, or the same and the higher score, or
both and the earlier position. -/
def Precedes (survivors : List ExecutionTarget) (policy : RoutingPolicy) (streaming : Bool)
    (p q : ExecutionTarget × ℕ) : Prop :=
  demoteRank p.1 < demoteRank q.1 ∨ demoteRank p.1 = demoteRank q.1 ∧
    (scoreOf (ranking survivors policy streaming) q.1 <
        scoreOf (ranking survivors policy streaming) p.1 ∨
      scoreOf (ranking survivors policy streaming) q.1 =
        scoreOf (ranking survivors policy streaming) p.1 ∧ p.2 < q.2)

instance (survivors : List ExecutionTarget) (policy : RoutingPolicy) (streaming : Bool)
    (p q : ExecutionTarget × ℕ) : Decidable (Precedes survivors policy streaming p q) :=
  inferInstanceAs (Decidable (_ ∨ _))

/-- How many survivors precede one. -/
def place (survivors : List ExecutionTarget) (policy : RoutingPolicy) (streaming : Bool)
    (p : ExecutionTarget × ℕ) : ℕ :=
  survivors.zipIdx.countP fun q => Precedes survivors policy streaming q p

section Places

variable (survivors : List ExecutionTarget) (policy : RoutingPolicy) (streaming : Bool)

theorem flatMap_rank_perm {α : Type} [DecidableEq α] (rank : α → ℕ) (hle : ∀ a, rank a ≤ 2)
    (l : List α) : ([0, 1, 2].flatMap fun r => l.filter fun a => rank a = r).Perm l := by
  rw [List.perm_iff_count]
  intro a
  have hcount (r : ℕ) : (l.filter fun b => rank b = r).count a =
      if rank a = r then l.count a else 0 := by
    split_ifs with hr
    · exact List.count_filter (by simpa using hr)
    · rw [List.count_eq_zero]
      intro hmem
      exact hr (by simpa using (List.mem_filter.1 hmem).2)
  have hrank := hle a
  simp only [List.flatMap_cons, List.flatMap_nil, List.append_nil, List.count_append, hcount]
  obtain h | h | h : rank a = 0 ∨ rank a = 1 ∨ rank a = 2 := by omega
  all_goals simp [h]

theorem orderedPlaces_perm :
    (orderedPlaces survivors policy streaming).Perm survivors.zipIdx := by
  refine List.Perm.trans ?_ (flatMap_rank_perm (fun p : ExecutionTarget × ℕ => demoteRank p.1)
    (fun p => demoteRank_le p.1) survivors.zipIdx)
  exact List.Perm.flatMap_left _ fun r _ => sortOn_perm _ _

theorem orderedPlaces_fst :
    (orderedPlaces survivors policy streaming).map Prod.fst = ordered survivors policy streaming := by
  unfold orderedPlaces ordered
  rw [List.map_flatMap]
  congr 1
  funext r
  have hfilter : (survivors.zipIdx.filter fun p => demoteRank p.1 = r).map Prod.fst =
      survivors.filter fun t => demoteRank t = r := by
    conv_rhs => rw [← List.zipIdx_map_fst 0 survivors, List.filter_map]
    rfl
  rw [@map_sortOn _ _ _ (fun t => OrderDual.toDual
    (scoreOf (ranking survivors policy streaming) t)), hfilter]

theorem ordered_perm : (ordered survivors policy streaming).Perm survivors := by
  rw [← orderedPlaces_fst]
  have hperm := (orderedPlaces_perm survivors policy streaming).map Prod.fst
  rwa [List.zipIdx_map_fst] at hperm

theorem orderedPlaces_sorted :
    (orderedPlaces survivors policy streaming).Pairwise (Precedes survivors policy streaming) := by
  have hrank {r : ℕ} {p : ExecutionTarget × ℕ} (hp : p ∈ sortOn (fun p => OrderDual.toDual
      (scoreOf (ranking survivors policy streaming) p.1))
        (survivors.zipIdx.filter fun p => demoteRank p.1 = r)) : demoteRank p.1 = r := by
    simpa using (List.mem_filter.1 ((sortOn_perm _ _).mem_iff.1 hp)).2
  have hplaces : survivors.zipIdx.Pairwise fun p q => p.2 < q.2 := by
    have hrange : (survivors.zipIdx.map Prod.snd).Pairwise (· < ·) := by
      rw [List.zipIdx_map_snd]
      exact List.pairwise_lt_range'
    exact List.pairwise_map.1 hrange
  unfold orderedPlaces
  rw [List.pairwise_flatMap]
  constructor
  · intro r _
    refine (sortOn_stable (hplaces.filter _)).imp_of_mem fun hp hq hstable => ?_
    refine Or.inr ⟨(hrank hp).trans (hrank hq).symm, ?_⟩
    rcases hstable with hlt | ⟨heq, hlt⟩
    · exact Or.inl hlt
    · exact Or.inr ⟨(OrderDual.toDual_inj.1 heq).symm, hlt⟩
  · have hlt : [0, 1, 2].Pairwise fun r s : ℕ => r < s := by decide
    refine hlt.imp fun hrs p hp q hq => Or.inl ?_
    rwa [hrank hp, hrank hq]

theorem orderedPlaces_place {p : ExecutionTarget × ℕ} {k : ℕ}
    (hk : (orderedPlaces survivors policy streaming)[k]? = some p) :
    place survivors policy streaming p = k := by
  unfold place
  rw [← (orderedPlaces_perm survivors policy streaming).countP_eq]
  refine countP_of_sorted (fun p q hpq hqp => ?_)
    (orderedPlaces_sorted survivors policy streaming) hk
  unfold Precedes at hpq hqp
  rcases hpq with hpq | ⟨hpq, hlt | ⟨heq, hlt⟩⟩ <;>
    rcases hqp with hqp | ⟨hqp, hlt' | ⟨heq', hlt'⟩⟩ <;>
    first | omega | linarith

end Places

theorem rangeBounds_perm {l l' : List (Option ℚ)} (h : l.Perm l') :
    rangeBounds l = rangeBounds l' := by
  unfold rangeBounds
  refine (h.filterMap id).foldl_eq' (fun x _ y _ b => ?_) (none, none)
  obtain ⟨lo, hi⟩ := b
  cases lo <;> cases hi <;>
    simp [min_comm, max_comm, min_left_comm, max_left_comm]

theorem max_perm {l l' : List ℕ} (h : l.Perm l') : l.max? = l'.max? := by
  cases hmax : l'.max? with
  | none =>
    rw [List.max?_eq_none_iff] at hmax ⊢
    subst hmax
    exact List.perm_nil.1 h
  | some m =>
    rw [List.max?_eq_some_iff] at hmax ⊢
    exact ⟨h.mem_iff.2 hmax.1, fun b hb => hmax.2 b (h.mem_iff.1 hb)⟩

theorem bounds_perm {l l' : List ExecutionTarget} (h : l.Perm l') (policy : RoutingPolicy)
    (streaming : Bool) : bounds l policy streaming = bounds l' policy streaming := by
  unfold bounds
  rw [rangeBounds_perm (h.map _), rangeBounds_perm (h.map _), max_perm (h.filterMap _), h.any_eq]

/-! ### A score by the position -/

section Position

variable (b : Bounds) (quality : Option QualityContext) (scoring : ScoringPolicy)
  (policy : RoutingPolicy) (t : ExecutionTarget)

/-- A weight that is not positive does not count. -/
def counted (weight : ℚ) : ℚ := if weight ≤ 0 then 0 else weight

/-- The weighted sum and the total weight of some factors. -/
def weigh (weightOf : String → ℚ) (entries : List (String × ℚ)) : ℚ × ℚ :=
  ((entries.map fun p => counted (weightOf p.1) * p.2).sum,
    (entries.map fun p => counted (weightOf p.1)).sum)

theorem foldl_weigh (weightOf : String → ℚ) (entries : List (String × ℚ)) (acc : ℚ × ℚ) :
    entries.foldl (fun acc p =>
      if weightOf p.1 ≤ 0 then acc else (acc.1 + weightOf p.1 * p.2, acc.2 + weightOf p.1)) acc =
      (acc.1 + (weigh weightOf entries).1, acc.2 + (weigh weightOf entries).2) := by
  induction entries generalizing acc with
  | nil => simp [weigh]
  | cons p entries ih =>
    rw [List.foldl_cons, ih]
    by_cases hw : weightOf p.1 ≤ 0
    · simp [weigh, counted, hw]
    · simp [weigh, counted, hw, add_assoc]

/-- Whatever its value is, a key stands between the same entries. -/
def SplitsAt (key : String) (f : ℚ → OrdMap String ℚ) : Prop :=
  ∃ before after, ∀ v, (f v).entries = before ++ (key, v) :: after

theorem insertList_splits {key k : String} (hk : k ≠ key) (w : ℚ) (before after) :
    ∃ before' after', ∀ v, OrdMap.insertList k w (before ++ (key, v) :: after) =
      before' ++ (key, v) :: after' := by
  induction before with
  | nil =>
    by_cases hlt : k < key
    · exact ⟨[(k, w)], after, fun v => by simp [OrdMap.insertList, hlt]⟩
    · exact ⟨[], OrdMap.insertList k w after, fun v => by simp [OrdMap.insertList, hlt, hk]⟩
  | cons p before ih =>
    obtain ⟨before', after', hsplit⟩ := ih
    by_cases hlt : k < p.1
    · exact ⟨(k, w) :: p :: before, after, fun v => by simp [OrdMap.insertList, hlt]⟩
    · by_cases heq : k = p.1
      · exact ⟨(k, w) :: before, after, fun v => by
          rw [List.cons_append, OrdMap.insertList, if_neg hlt, if_pos heq, List.cons_append]⟩
      · exact ⟨p :: before', after', fun v => by
          rw [List.cons_append, OrdMap.insertList, if_neg hlt, if_neg heq, hsplit,
            List.cons_append]⟩

theorem SplitsAt.insert {key k : String} {f : ℚ → OrdMap String ℚ} (h : SplitsAt key f)
    (hk : k ≠ key) (w : ℚ) : SplitsAt key fun v => (f v).insert k w := by
  obtain ⟨before, after, hsplit⟩ := h
  obtain ⟨before', after', hsplit'⟩ := insertList_splits hk w before after
  refine ⟨before', after', fun v => ?_⟩
  show OrdMap.insertList k w (f v).entries = _
  rw [hsplit, hsplit']

theorem factors_splits : SplitsAt "selection_rank" fun rank => factors b quality rank t := by
  have hfirst : SplitsAt "selection_rank" fun rank =>
      OrdMap.empty.insert "selection_rank" rank := ⟨[], [], fun _ => rfl⟩
  have hlist := ((((((hfirst.insert (k := "health") (by decide) (healthFactor t.health)).insert
    (k := "account_availability") (by decide) (accountAvailabilityFactor t)).insert
    (k := "cost") (by decide) (t.cost.elim 0 fun cost =>
      inverseRangeFactor (some (blendedPerMtok cost)) b.cost.1 b.cost.2)).insert
    (k := "latency") (by decide) (inverseRangeFactor (t.latencyEwmaMs.map Fp.toRat) b.latency.1
      b.latency.2)).insert
    (k := "ttft") (by decide) (inverseRangeFactor ((t.ttftEwmaMs.or t.latencyEwmaMs).map Fp.toRat)
      b.latency.1 b.latency.2)).insert
    (k := "task_fit") (by decide) (if isCodingTarget t then 1 else 0)).insert
    (k := "context_fit") (by decide) (match b.maxContext with
      | some m => t.capabilities.maxContextTokens.elim 0 fun n => (n : ℚ) / m
      | none => 0)
  unfold factors
  cases b.anyOutcomeEvidence with
  | false =>
    cases quality with
    | none => exact hlist
    | some q => exact hlist.insert (by decide) _
  | true =>
    cases quality with
    | none => exact hlist.insert (by decide) _
    | some q => exact (hlist.insert (by decide) _).insert (by decide) _

/-- The weighted factors of a target without its position, and the total weight. -/
def base : ℚ × ℚ := weigh (weightOf scoring policy) (factors b quality 0 t).entries

/-- The weighted average of a target at a position. -/
def average (rank : ℚ) : ℚ :=
  ((base b quality scoring policy t).1 + counted scoring.selectionRank.toRat * rank) /
    (base b quality scoring policy t).2

/-- **A score is an average that is linear in the position**, cut off at the unit interval. -/
theorem weightedScore_eq (rank : ℚ) :
    weightedScore (factors b quality rank t) (weightOf scoring policy) =
      if (base b quality scoring policy t).2 ≤ epsilon then 0
      else clampUnit (average b quality scoring policy t rank) := by
  obtain ⟨before, after, hentries⟩ := factors_splits b quality t
  have hweight : weightOf scoring policy "selection_rank" = scoring.selectionRank.toRat := rfl
  have hsum : weigh (weightOf scoring policy) (factors b quality rank t).entries =
      ((base b quality scoring policy t).1 + counted scoring.selectionRank.toRat * rank,
        (base b quality scoring policy t).2) := by
    unfold base weigh
    rw [hentries, hentries]
    simp only [List.map_append, List.map_cons, List.sum_append, List.sum_cons, hweight, mul_zero,
      zero_add, Prod.mk.injEq, and_true]
    ring
  unfold weightedScore
  rw [foldl_weigh, hsum]
  simp only [zero_add]
  rfl

end Position

/-! ### The last survivor of an id -/

def LastAt (l : List ExecutionTarget) (id : String) (j : ℕ) : Prop :=
  (l[j]?).map ExecutionTarget.id = some id ∧
    ∀ i, j < i → (l[i]?).map ExecutionTarget.id ≠ some id

theorem exists_lastAt {l : List ExecutionTarget} {id : String} (h : ∃ u ∈ l, u.id = id) :
    ∃ j, LastAt l id j := by
  induction l with
  | nil =>
    obtain ⟨u, hu, -⟩ := h
    cases hu
  | cons a l ih =>
    by_cases hin : ∃ u ∈ l, u.id = id
    · obtain ⟨j, hj, hlater⟩ := ih hin
      refine ⟨j + 1, hj, fun i hi => ?_⟩
      obtain ⟨i, rfl⟩ : ∃ i', i = i' + 1 := ⟨i - 1, by omega⟩
      exact hlater i (by omega)
    · obtain ⟨u, hu, hid⟩ := h
      rcases List.mem_cons.1 hu with rfl | hu
      · refine ⟨0, congrArg some hid, fun i hi hlater => ?_⟩
        obtain ⟨i, rfl⟩ : ∃ i', i = i' + 1 := ⟨i - 1, by omega⟩
        obtain ⟨v, hv, hvid⟩ := Option.map_eq_some_iff.1 hlater
        exact hin ⟨v, List.mem_of_getElem? hv, hvid⟩
      · exact absurd ⟨u, hu, hid⟩ hin

theorem get_foldl_of_last {entries : List (String × ℚ)} {key : String} {v : ℚ} {j : ℕ}
    (hj : entries[j]? = some (key, v))
    (hlater : ∀ i, j < i → (entries[i]?).map Prod.fst ≠ some key) (m : OrdMap String ℚ) :
    (entries.foldl (fun m p => m.insert p.1 p.2) m).get key = some v := by
  have hskip (entries : List (String × ℚ)) (m : OrdMap String ℚ)
      (h : ∀ i : ℕ, (entries[i]?).map Prod.fst ≠ some key) :
      (entries.foldl (fun m p => m.insert p.1 p.2) m).get key = m.get key := by
    induction entries generalizing m with
    | nil => rfl
    | cons p entries ih =>
      have hne : key ≠ p.1 := fun heq => h 0 (congrArg some heq.symm)
      rw [List.foldl_cons, ih _ fun i => h (i + 1), OrdMap.get_insert, if_neg hne]
  induction entries generalizing m j with
  | nil => cases hj
  | cons p entries ih =>
    cases j with
    | zero =>
      obtain rfl : p = (key, v) := Option.some.inj hj
      rw [List.foldl_cons, hskip entries _ fun i => hlater (i + 1) (Nat.succ_pos i),
        OrdMap.get_insert, if_pos rfl]
    | succ j => exact ih hj (fun i hi => hlater (i + 1) (Nat.succ_lt_succ hi)) _

section Both

variable {survivors : List ExecutionTarget} {policy : RoutingPolicy} {streaming : Bool}

variable {j i k : ℕ} {t : ExecutionTarget}

theorem ranking_get {u : ExecutionTarget} (hlast : LastAt survivors t.id j)
    (hu : survivors[j]? = some u) :
    (ranking survivors policy streaming).get t.id =
      some (routeScore (bounds survivors policy streaming) policy
        (QualityContext.new survivors policy) survivors.length j u).score := by
  have hid (i : ℕ) : (((routeScores survivors policy streaming
      (QualityContext.new survivors policy)).map fun s => (s.targetId, s.score))[i]?).map
        Prod.fst = (survivors[i]?).map ExecutionTarget.id := by
    rw [routeScores, List.getElem?_map, List.getElem?_mapIdx, Option.map_map, Option.map_map]
    rfl
  apply get_foldl_of_last
  · rw [routeScores, List.getElem?_map, List.getElem?_mapIdx, hu]
    have huid : u.id = t.id := by
      have h := hlast.1
      rw [hu] at h
      exact Option.some.inj h
    rw [← huid]
    rfl
  · intro i hi
    rw [hid]
    exact hlast.2 i hi

theorem exists_ordered (hi : survivors[i]? = some t) :
    ∃ k, (ordered survivors policy streaming)[k]? = some t ∧
      place survivors policy streaming (t, i) = k := by
  have hmem : (t, i) ∈ orderedPlaces survivors policy streaming := by
    rw [(orderedPlaces_perm survivors policy streaming).mem_iff]
    exact List.mem_zipIdx_iff_getElem?.2 hi
  obtain ⟨k, hk⟩ := List.mem_iff_getElem?.1 hmem
  refine ⟨k, ?_, orderedPlaces_place survivors policy streaming hk⟩
  rw [← orderedPlaces_fst, List.getElem?_map, hk]
  rfl

theorem exists_declared (hk : (ordered survivors policy streaming)[k]? = some t) :
    ∃ i, survivors[i]? = some t ∧ place survivors policy streaming (t, i) = k := by
  rw [← orderedPlaces_fst, List.getElem?_map] at hk
  obtain ⟨p, hp, rfl⟩ := Option.map_eq_some_iff.1 hk
  have hmem := (orderedPlaces_perm survivors policy streaming).mem_iff.1
    (List.mem_of_getElem? hp)
  exact ⟨p.2, List.mem_zipIdx_iff_getElem?.1 hmem, orderedPlaces_place survivors policy streaming hp⟩

theorem receipt_getElem (ht : (ordered survivors policy streaming)[k]? = some t) :
    (receipt survivors policy streaming)[k]? =
      some (routeScore (bounds survivors policy streaming) policy
        (QualityContext.new survivors policy) survivors.length k t) := by
  have hperm := ordered_perm survivors policy streaming
  rw [receipt, routeScores, List.getElem?_mapIdx, ht, bounds_perm hperm, hperm.length_eq]
  rfl

/-- Two averages that are cut off at the same end. -/
def CutOff (x y : ℚ) : Prop := 1 ≤ x ∧ 1 ≤ y ∨ x ≤ 0 ∧ y ≤ 0

theorem clampUnit_eq_iff {x y : ℚ} : clampUnit x = clampUnit y ↔ x = y ∨ CutOff x y := by
  have hcases (z : ℚ) : z ≤ 0 ∧ clampUnit z = 0 ∨ 0 < z ∧ z < 1 ∧ clampUnit z = z ∨
      1 ≤ z ∧ clampUnit z = 1 := by
    unfold clampUnit
    rcases le_or_gt z 0 with h | h
    · exact Or.inl ⟨h, by rw [min_eq_left (by linarith), max_eq_left h]⟩
    · rcases lt_or_ge z 1 with h' | h'
      · exact Or.inr (Or.inl ⟨h, h', by rw [min_eq_left h'.le, max_eq_right h.le]⟩)
      · exact Or.inr (Or.inr ⟨h', by rw [min_eq_right h', max_eq_right zero_le_one]⟩)
  unfold CutOff
  constructor
  · intro heq
    rcases hcases x with ⟨hx, hx'⟩ | ⟨hx, hx1, hx'⟩ | ⟨hx, hx'⟩ <;>
      rcases hcases y with ⟨hy, hy'⟩ | ⟨hy, hy1, hy'⟩ | ⟨hy, hy'⟩ <;>
      rw [hx', hy'] at heq
    · exact Or.inr (Or.inr ⟨hx, hy⟩)
    · exact absurd heq hy.ne
    · norm_num at heq
    · exact absurd heq hx.ne'
    · exact Or.inl heq
    · exact absurd heq hx1.ne
    · norm_num at heq
    · exact absurd heq hy1.ne'
    · exact Or.inr (Or.inl ⟨hx, hy⟩)
  · rintro (rfl | ⟨hx, hy⟩ | ⟨hx, hy⟩)
    · rfl
    · unfold clampUnit
      rw [min_eq_right hx, min_eq_right hy]
    · unfold clampUnit
      rw [min_eq_left (by linarith), min_eq_left (by linarith), max_eq_left hx, max_eq_left hy]

theorem rankFactor_inj {len : ℕ} (hi : i < len) (hj : j < len)
    (h : rankFactor i len = rankFactor j len) : i = j := by
  unfold rankFactor at h
  split_ifs at h with hlen
  · omega
  · have hpos : (0 : ℚ) < (len - 1 : ℕ) := by
      have hlen : 0 < len - 1 := by omega
      exact_mod_cast hlen
    have hdiv : (i : ℚ) / (len - 1 : ℕ) = j / (len - 1 : ℕ) := by linarith
    have hij := (div_left_inj' hpos.ne').1 hdiv
    exact_mod_cast hij

/-! ### The receipt explains the order -/

/-- The receipt reports the score that each survivor is ranked by; so the scores do not increase
within a demotion rank, and the summary names the first score of the receipt. -/
structure Explained (survivors : List ExecutionTarget) (policy : RoutingPolicy)
    (streaming : Bool) : Prop where
  reported : ∀ (k : ℕ) (t : ExecutionTarget), (ordered survivors policy streaming)[k]? = some t →
    ((receipt survivors policy streaming)[k]?).map RouteScore.score =
      (ranking survivors policy streaming).get t.id
  descending : ∀ (i j : ℕ) (a b : ExecutionTarget) (x y : RouteScore), i < j →
    (ordered survivors policy streaming)[i]? = some a →
    (ordered survivors policy streaming)[j]? = some b → demoteRank a = demoteRank b →
    (receipt survivors policy streaming)[i]? = some x →
    (receipt survivors policy streaming)[j]? = some y → y.score ≤ x.score
  summary : ∀ t, (ordered survivors policy streaming).head? = some t →
    ((receipt survivors policy streaming).head?).map RouteScore.score =
      some (scoreOf (ranking survivors policy streaming) t)

/-- The position does not count, or every survivor's place is where its id was declared last;
otherwise its average is cut off at the same end at both positions. -/
def Settled (survivors : List ExecutionTarget) (policy : RoutingPolicy) (scoring : ScoringPolicy)
    (streaming : Bool) : Prop :=
  scoring.selectionRank.toRat ≤ 0 ∨ ∀ t ∈ survivors,
    (base (bounds survivors policy streaming) (QualityContext.new survivors policy) scoring policy
      t).2 ≤ epsilon ∨
    ∀ i j, survivors[i]? = some t → LastAt survivors t.id j →
      place survivors policy streaming (t, i) = j ∨ CutOff
        (average (bounds survivors policy streaming) (QualityContext.new survivors policy) scoring
          policy t (rankFactor j survivors.length))
        (average (bounds survivors policy streaming) (QualityContext.new survivors policy) scoring
          policy t (rankFactor (place survivors policy streaming (t, i)) survivors.length))

variable {scoring : ScoringPolicy}

theorem epsilon_pos : 0 < epsilon := by unfold epsilon; positivity

theorem routeScore_eq_iff (hscoring : policy.scoring = some scoring) {b : Bounds}
    {quality : Option QualityContext} {len : ℕ} (hj : j < len)
    (hk : k < len) :
    (routeScore b policy quality len k t).score = (routeScore b policy quality len j t).score ↔
      scoring.selectionRank.toRat ≤ 0 ∨ (base b quality scoring policy t).2 ≤ epsilon ∨ k = j ∨
        CutOff (average b quality scoring policy t (rankFactor j len))
          (average b quality scoring policy t (rankFactor k len)) := by
  unfold routeScore
  simp only [hscoring, Option.elim_some, weightedScore_eq]
  by_cases htotal : (base b quality scoring policy t).2 ≤ epsilon
  · simp [htotal]
  rw [if_neg htotal, if_neg htotal, eq_comm, clampUnit_eq_iff]
  have hpos : 0 < (base b quality scoring policy t).2 := epsilon_pos.trans (not_le.1 htotal)
  have haverage : average b quality scoring policy t (rankFactor j len) =
      average b quality scoring policy t (rankFactor k len) ↔
        scoring.selectionRank.toRat ≤ 0 ∨ k = j := by
    unfold average
    rw [div_left_inj' hpos.ne', add_right_inj]
    by_cases hweight : scoring.selectionRank.toRat ≤ 0
    · simp [counted, hweight]
    · have hne : counted scoring.selectionRank.toRat ≠ 0 := by
        rw [counted, if_neg hweight]
        exact fun h => hweight h.le
      rw [mul_right_inj' hne]
      constructor
      · exact fun h => Or.inr (rankFactor_inj hk hj h.symm)
      · rintro (h | rfl)
        · exact absurd h hweight
        · rfl
  rw [haverage]
  tauto

theorem descending_of_reported
    (h : ∀ (k : ℕ) (t : ExecutionTarget), (ordered survivors policy streaming)[k]? = some t →
      ((receipt survivors policy streaming)[k]?).map RouteScore.score =
        (ranking survivors policy streaming).get t.id) {a b : ExecutionTarget}
    {x y : RouteScore} (hij : i < j) (ha : (ordered survivors policy streaming)[i]? = some a)
    (hb : (ordered survivors policy streaming)[j]? = some b)
    (hrank : demoteRank a = demoteRank b)
    (hx : (receipt survivors policy streaming)[i]? = some x)
    (hy : (receipt survivors policy streaming)[j]? = some y) : y.score ≤ x.score := by
  have hsorted : (ordered survivors policy streaming).Pairwise fun a b =>
      demoteRank a = demoteRank b → scoreOf (ranking survivors policy streaming) b ≤
        scoreOf (ranking survivors policy streaming) a := by
    rw [← orderedPlaces_fst, List.pairwise_map]
    refine (orderedPlaces_sorted survivors policy streaming).imp fun hprecedes hsame => ?_
    rcases hprecedes with hlt | ⟨-, hlt | ⟨heq, -⟩⟩
    · omega
    · exact hlt.le
    · exact heq.le
  obtain ⟨hi, rfl⟩ := List.getElem?_eq_some_iff.1 ha
  obtain ⟨hj, rfl⟩ := List.getElem?_eq_some_iff.1 hb
  have hle := List.pairwise_iff_getElem.1 hsorted i j hi hj hij hrank
  have hxi := h i _ ha
  have hyj := h j _ hb
  rw [hx, Option.map_some] at hxi
  rw [hy, Option.map_some] at hyj
  unfold scoreOf at hle
  rw [← hxi, ← hyj] at hle
  exact hle

/-- **The receipt explains the order** exactly when the order is settled. -/
theorem explained_iff (hscoring : policy.scoring = some scoring)
    (hids : ∀ a ∈ survivors, ∀ b ∈ survivors, a.id = b.id → a = b) :
    Explained survivors policy streaming ↔ Settled survivors policy scoring streaming := by
  have hperm := ordered_perm survivors policy streaming
  -- both scores of a survivor, in one equation
  have hscore (k j : ℕ) (t : ExecutionTarget)
      (hk : (ordered survivors policy streaming)[k]? = some t) (hj : LastAt survivors t.id j) :
      ((receipt survivors policy streaming)[k]?).map RouteScore.score =
        (ranking survivors policy streaming).get t.id ↔
      scoring.selectionRank.toRat ≤ 0 ∨
        (base (bounds survivors policy streaming) (QualityContext.new survivors policy) scoring
          policy t).2 ≤ epsilon ∨ k = j ∨ CutOff
          (average (bounds survivors policy streaming) (QualityContext.new survivors policy)
            scoring policy t (rankFactor j survivors.length))
          (average (bounds survivors policy streaming) (QualityContext.new survivors policy)
            scoring policy t (rankFactor k survivors.length)) := by
    obtain ⟨u, hu, huid⟩ := Option.map_eq_some_iff.1 hj.1
    have htmem : t ∈ survivors := hperm.mem_iff.1 (List.mem_of_getElem? hk)
    obtain rfl := hids u (List.mem_of_getElem? hu) t htmem huid
    have hklen : k < survivors.length := by
      rw [← hperm.length_eq]
      exact (List.getElem?_eq_some_iff.1 hk).1
    have hjlen := (List.getElem?_eq_some_iff.1 hu).1
    rw [ranking_get hj hu, receipt_getElem hk, Option.map_some, Option.some.injEq]
    exact routeScore_eq_iff hscoring hjlen hklen
  constructor
  · intro h
    by_cases hweight : scoring.selectionRank.toRat ≤ 0
    · exact Or.inl hweight
    refine Or.inr fun t _ => ?_
    by_cases htotal : (base (bounds survivors policy streaming)
        (QualityContext.new survivors policy) scoring policy t).2 ≤ epsilon
    · exact Or.inl htotal
    refine Or.inr fun i j hi hj => ?_
    obtain ⟨k, hk, hplace⟩ := exists_ordered hi
    have hsame := (hscore k j t hk hj).1 (h.reported k t hk)
    rw [hplace]
    exact (hsame.resolve_left hweight).resolve_left htotal
  · intro h
    have hreported : ∀ (k : ℕ) (t : ExecutionTarget),
        (ordered survivors policy streaming)[k]? = some t →
        ((receipt survivors policy streaming)[k]?).map RouteScore.score =
          (ranking survivors policy streaming).get t.id := by
      intro k t hk
      have htmem : t ∈ survivors := hperm.mem_iff.1 (List.mem_of_getElem? hk)
      obtain ⟨j, hj⟩ := exists_lastAt ⟨t, htmem, rfl⟩
      rw [hscore k j t hk hj]
      rcases h with hweight | h
      · exact Or.inl hweight
      · rcases h t htmem with htotal | hmoved
        · exact Or.inr (Or.inl htotal)
        · obtain ⟨i, hi, hplace⟩ := exists_declared hk
          rw [← hplace]
          exact Or.inr (Or.inr (hmoved i j hi hj))
    refine ⟨hreported, fun i j a b x y hij ha hb hrank hx hy =>
      descending_of_reported hreported hij ha hb hrank hx hy, fun t ht => ?_⟩
    have hfirst : (ordered survivors policy streaming)[0]? = some t := by
      rw [← List.head?_eq_getElem?]
      exact ht
    have hzero := hreported 0 t hfirst
    rw [receipt_getElem hfirst, Option.map_some] at hzero
    rw [List.head?_eq_getElem?, receipt_getElem hfirst, Option.map_some, scoreOf, ← hzero]
    rfl

end Both

/-- **The score receipt of a plan explains its order** exactly when the order is settled. -/
theorem score_receipt_iff (req : AiRequest) (require : RouteRequire)
    (candidates : List ExecutionTarget) (policy : RoutingPolicy) (scoring : ScoringPolicy)
    (hscoring : policy.scoring = some scoring)
    (hids : ∀ a ∈ candidates, ∀ b ∈ candidates, a.id = b.id → a = b) :
    Explained (eligible req require candidates policy) policy (Needs.of req require).streaming ↔
      Settled (eligible req require candidates policy) policy scoring
        (Needs.of req require).streaming := by
  have hmem : ∀ t ∈ eligible req require candidates policy, t ∈ candidates := by
    intro t ht
    unfold eligible at ht
    split_ifs at ht
    · exact List.mem_of_mem_filter ht
    · exact List.mem_of_mem_filter ht
    · cases ht
  exact explained_iff hscoring fun a ha b hb => hids a (hmem a ha) b (hmem b hb)

/-! ### A receipt that does not explain the order -/

/-- A target with a price. -/
def priced (provider : String) (input : F64) : ExecutionTarget :=
  { ExecutionTarget.new provider "k3" .modelApi with
    cost := some { inputPerMtok := input, outputPerMtok := Fp.zero } }

/-- The price counts twice as much as the position. -/
def rankAndCost : ScoringPolicy where
  selectionRank := Fp.ofDecimal 1 0
  cost := Fp.ofDecimal 2 0

def rankedAndPriced : RoutingPolicy where
  scoring := some rankAndCost

theorem score_receipt_priced :
    Explained (eligible helloRequest {} [priced "zai" (Fp.ofDecimal 1 0),
        priced "kimi" (Fp.ofDecimal 2 0)] rankedAndPriced) rankedAndPriced false ↔
      Settled (eligible helloRequest {} [priced "zai" (Fp.ofDecimal 1 0),
        priced "kimi" (Fp.ofDecimal 2 0)] rankedAndPriced) rankedAndPriced rankAndCost false :=
  score_receipt_iff helloRequest {} _ rankedAndPriced rankAndCost rfl (by decide +kernel)

theorem weightOf_rankedAndPriced_nonneg (factor : String) :
    0 ≤ weightOf rankAndCost rankedAndPriced factor := by
  unfold weightOf
  split_ifs
  · decide +kernel
  · decide +kernel
  · unfold ScoringPolicy.weightFor
    split <;> decide +kernel

/-- The cheaper target moves up, and its receipt counts the position that it moved to. -/
theorem score_receipt_moved :
    ¬ ∀ (req : AiRequest) (require : RouteRequire) (candidates : List ExecutionTarget)
      (policy : RoutingPolicy) (scoring : ScoringPolicy), policy.scoring = some scoring →
      (∀ factor, 0 ≤ weightOf scoring policy factor) →
      (candidates.map ExecutionTarget.id).Nodup →
        Explained (eligible req require candidates policy) policy
          (Needs.of req require).streaming := by
  intro h
  have hexplained := h helloRequest {}
    [priced "kimi" (Fp.ofDecimal 2 0), priced "zai" (Fp.ofDecimal 1 0)] rankedAndPriced rankAndCost
    rfl weightOf_rankedAndPriced_nonneg (by decide +kernel)
  have hfirst := hexplained.summary (priced "zai" (Fp.ofDecimal 1 0)) (by decide +kernel)
  revert hfirst
  decide +kernel

end Exact

end Router

end Switchback
