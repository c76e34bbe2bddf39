import Switchback.Lib.FloatOrder
import Switchback.Lib.Runs
import Switchback.Router.Plan

/-!
# The ordering law

Within a demotion rank the survivors stand in the stable order of the strategy's key, and a run of
equal keys whose members all have enough evidence stands in the order of their outcome health.
-/

namespace Switchback

namespace Router

open Lib Runs

/-! ### The key of a strategy -/

inductive Strategy where
  | score
  | coding
  | largeContext
  | cost
  | latency
  | declared

namespace Strategy

def of (policy : RoutingPolicy) : Strategy :=
  if policy.scoring.isSome then .score
  else if policy.profile = some .coding then .coding
  else if policy.profile = some .largeContext then .largeContext
  else if policy.costAware then .cost
  else if policy.latencyAware then .latency
  else .declared

/-- The place of a floating-point datum. -/
abbrev Place := WithBot (WithTop ℚ)

/-- Higher scores and wider contexts come first. -/
def Key : Strategy → Type
  | .score => Placeᵒᵈ
  | .coding => Bool
  | .largeContext => ℕᵒᵈ
  | .cost => WithTop Place
  | .latency => WithBot Place
  | .declared => Unit

instance : (s : Strategy) → LinearOrder s.Key
  | .score => inferInstanceAs (LinearOrder Placeᵒᵈ)
  | .coding => inferInstanceAs (LinearOrder Bool)
  | .largeContext => inferInstanceAs (LinearOrder ℕᵒᵈ)
  | .cost => inferInstanceAs (LinearOrder (WithTop Place))
  | .latency => inferInstanceAs (LinearOrder (WithBot Place))
  | .declared => inferInstanceAs (LinearOrder Unit)

/-- The score that a target is ranked by. -/
def scoreOf (scores : Option (OrdMap String F64)) (t : ExecutionTarget) : F64 :=
  (scores.bind fun m => m.get t.id).getD Fp.zero

/-- An unknown price comes last. -/
def costPlace (t : ExecutionTarget) : WithTop Place :=
  t.cost.elim ⊤ fun c => (c.blendedPerMtok.rank : WithTop Place)

/-- An unmeasured latency comes first. -/
def latencyPlace (streaming : Bool) (t : ExecutionTarget) : WithBot Place :=
  (latencySignal streaming t).elim ⊥ fun ms => (ms.rank : WithBot Place)

def key (streaming : Bool) (scores : Option (OrdMap String F64)) :
    (s : Strategy) → ExecutionTarget → s.Key
  | .score, t => OrderDual.toDual (scoreOf scores t).rank
  | .coding, t => !isCodingTarget t
  | .largeContext, t => OrderDual.toDual (t.capabilities.maxContextTokens.getD 0)
  | .cost, t => costPlace t
  | .latency, t => latencyPlace streaming t
  | .declared, _ => ()

end Strategy

/-- No key of the target is NaN. -/
structure Comparable (streaming : Bool) (scores : Option (OrdMap String F64))
    (t : ExecutionTarget) : Prop where
  cost : ∀ c, t.cost = some c → c.blendedPerMtok.isNan = false
  latency : ∀ ms, latencySignal streaming t = some ms → ms.isNan = false
  score : (Strategy.scoreOf scores t).isNan = false
  health : (outcomeHealth t).isNan = false

/-! ### Comparisons of keys -/

section Compare

variable {x y : F64} {a b : ExecutionTarget}

theorem cmpOrEq_compares (hx : x.isNan = false) (hy : y.isNan = false) :
    (cmpOrEq x y).Compares x.rank y.rank := by
  obtain ⟨o, ho, hcompares⟩ := Fp.partialCmp_compares hx hy
  rw [cmpOrEq, ho]
  exact hcompares

theorem compares_le_iff {α : Type*} [LinearOrder α] {o : Ordering} {p q : α} (h : o.Compares p q) :
    o ≠ .gt ↔ p ≤ q := by
  cases o with
  | lt => simpa using le_of_lt h
  | eq => simpa using le_of_eq h
  | gt => simpa using h

theorem compares_eq_iff {α : Type*} [LinearOrder α] {o : Ordering} {p q : α} (h : o.Compares p q) :
    o = .eq ↔ p = q := by
  cases o with
  | lt => simpa using ne_of_lt h
  | eq => simpa using h
  | gt => simpa using (ne_of_lt h).symm

theorem compares_coe_top {o : Ordering} {p q : Strategy.Place} (h : o.Compares p q) :
    o.Compares (p : WithTop Strategy.Place) (q : WithTop Strategy.Place) := by
  cases o with
  | lt => exact WithTop.coe_lt_coe.2 h
  | eq => exact congrArg _ h
  | gt => exact WithTop.coe_lt_coe.2 h

theorem compares_coe_bot {o : Ordering} {p q : Strategy.Place} (h : o.Compares p q) :
    o.Compares (p : WithBot Strategy.Place) (q : WithBot Strategy.Place) := by
  cases o with
  | lt => exact WithBot.coe_lt_coe.2 h
  | eq => exact congrArg _ h
  | gt => exact WithBot.coe_lt_coe.2 h

theorem costCmp_compares (ha : ∀ c, a.cost = some c → c.blendedPerMtok.isNan = false)
    (hb : ∀ c, b.cost = some c → c.blendedPerMtok.isNan = false) :
    (costCmp a b).Compares (Strategy.costPlace a) (Strategy.costPlace b) := by
  unfold costCmp Strategy.costPlace
  cases hca : a.cost with
  | none =>
    cases hcb : b.cost with
    | none => exact rfl
    | some d => exact WithTop.coe_lt_top d.blendedPerMtok.rank
  | some c =>
    cases hcb : b.cost with
    | none => exact WithTop.coe_lt_top c.blendedPerMtok.rank
    | some d => exact compares_coe_top (cmpOrEq_compares (ha c hca) (hb d hcb))

theorem latencyCmp_compares {streaming : Bool}
    (ha : ∀ ms, latencySignal streaming a = some ms → ms.isNan = false)
    (hb : ∀ ms, latencySignal streaming b = some ms → ms.isNan = false) :
    (latencyCmp streaming a b).Compares (Strategy.latencyPlace streaming a)
      (Strategy.latencyPlace streaming b) := by
  unfold latencyCmp Strategy.latencyPlace
  cases hsa : latencySignal streaming a with
  | none =>
    cases hsb : latencySignal streaming b with
    | none => exact rfl
    | some d => exact WithBot.bot_lt_coe d.rank
  | some c =>
    cases hsb : latencySignal streaming b with
    | none => exact WithBot.bot_lt_coe c.rank
    | some d => exact compares_coe_bot (cmpOrEq_compares (ha c hsa) (hb d hsb))

end Compare

/-! ### One rank -/

section Rank

variable {streaming : Bool} {scores : Option (OrdMap String F64)} {minSamples : ℕ}

/-- A run, as the tie-break leaves it. -/
def tied (minSamples : ℕ) (run : List ExecutionTarget) : List ExecutionTarget :=
  (tiebreakRun minSamples run).1

/-- Enough evidence on a target. -/
def qualifies (minSamples : ℕ) (t : ExecutionTarget) : Bool :=
  t.outcome.any fun o => decide (minSamples ≤ o.samples)

/-- Where outcome health puts a target: healthier ones first. -/
def healthPlace (t : ExecutionTarget) : Strategy.Placeᵒᵈ := OrderDual.toDual (outcomeHealth t).rank

theorem tied_eq {run : List ExecutionTarget} (h : ∀ t ∈ run, (outcomeHealth t).isNan = false) :
    tied minSamples run =
      if run.all (qualifies minSamples) then sortOn healthPlace run else run := by
  have hsort : sortBy (fun a b =>
      (Fp.partialCmp (outcomeHealth b) (outcomeHealth a)).getD .eq) run =
      sortOn healthPlace run := by
    refine insertionSort_eq_sortOn fun a ha b hb => ?_
    obtain ⟨o, ho, hcompares⟩ := Fp.partialCmp_compares (h b hb) (h a ha)
    show (Fp.partialCmp (outcomeHealth b) (outcomeHealth a)).getD .eq ≠ .gt ↔
      (outcomeHealth b).rank ≤ (outcomeHealth a).rank
    rw [ho]
    exact compares_le_iff hcompares
  have hall : (run.all fun t => t.outcome.any fun o => decide (minSamples ≤ o.samples)) =
      run.all (qualifies minSamples) := rfl
  unfold tied tiebreakRun
  rw [hall]
  by_cases hlength : 1 < run.length
  · by_cases hqualified : run.all (qualifies minSamples) = true
    · rw [if_pos (by simp [hlength, hqualified]), if_pos hqualified, hsort]
      dsimp only
      split_ifs
      · rfl
      · cases sortOn healthPlace run <;> rfl
    · rw [if_neg (by simp [hqualified]), if_neg hqualified]
  · have hsmall : sortOn healthPlace run = run := by
      apply sortOn_of_sorted
      match run, hlength with
      | [], _ => exact List.Pairwise.nil
      | [_], _ => exact List.pairwise_singleton _ _
      | _ :: _ :: _, hlength => exact absurd (by simp) hlength
    rw [if_neg (by simp [hlength]), hsmall, ite_self]

variable {κ : Type} [LinearOrder κ] {key : ExecutionTarget → κ}

theorem tiebreakRuns_runs {sameGroup : ExecutionTarget → ExecutionTarget → Bool} {fuel : ℕ}
    {l : List ExecutionTarget} (hfuel : l.length ≤ fuel)
    (hsame : ∀ a ∈ l, ∀ b ∈ l, sameGroup a b = decide (key b = key a))
    (hl : l.Pairwise fun a b => key a ≤ key b) :
    RunsBy key (tied minSamples) l (tiebreakRuns minSamples sameGroup fuel l).1 := by
  induction fuel generalizing l with
  | zero =>
    obtain rfl := List.length_eq_zero_iff.1 (Nat.le_zero.1 hfuel)
    exact .nil rfl
  | succ fuel ih =>
    cases l with
    | nil => exact .nil rfl
    | cons t l =>
      obtain ⟨hhead, htail⟩ := List.pairwise_cons.1 hl
      have hgroup : ∀ a ∈ l, sameGroup t a = decide (key a = key t) := fun a ha =>
        hsame t List.mem_cons_self a (List.mem_cons_of_mem t ha)
      have hdrop := dropWhile_eq_filter hgroup htail hhead
      have hrest : RunsBy key (tied minSamples) (l.filter fun a => key a ≠ key t)
          (tiebreakRuns minSamples sameGroup fuel (l.filter fun a => key a ≠ key t)).1 := by
        apply ih
        · have hle := (List.filter_sublist (p := fun a => decide (key a ≠ key t))
            (l := l)).length_le
          simp only [List.length_cons] at hfuel
          omega
        · intro a ha b hb
          exact hsame a (List.mem_cons_of_mem t (List.mem_of_mem_filter ha)) b
            (List.mem_cons_of_mem t (List.mem_of_mem_filter hb))
        · exact htail.filter _
      have hcons := RunsBy.cons (tiebreakRun_perm minSamples) hl hrest
      rw [← hdrop, ← takeWhile_eq_filter hgroup htail hhead] at hcons
      exact hcons

variable {policy : RoutingPolicy} {part : List ExecutionTarget}

/-- What the strategy does with a run of equal keys. -/
def rearranged (policy : RoutingPolicy) (run : List ExecutionTarget) : List ExecutionTarget :=
  if policy.scoring.isSome then run else tied policy.scorecard.demotion.minSamples run

/-- A stable sort by a comparison of keys, and the tie-break within each key. -/
theorem applyOutcomeTiebreak_runs {cmp : ExecutionTarget → ExecutionTarget → Ordering}
    {sameGroup : ExecutionTarget → ExecutionTarget → Bool}
    (hcmp : ∀ a ∈ part, ∀ b ∈ part, (cmp a b).Compares (key a) (key b))
    (hsame : ∀ a ∈ part, ∀ b ∈ part, sameGroup a b = decide (key b = key a)) :
    RunsBy key (tied minSamples) part
      (applyOutcomeTiebreak (sortBy cmp part) minSamples sameGroup).1 := by
  have hsort : sortBy cmp part = sortOn key part :=
    insertionSort_eq_sortOn fun a ha b hb => compares_le_iff (hcmp a ha b hb)
  rw [hsort]
  apply RunsBy.of_sortOn
  refine tiebreakRuns_runs le_rfl (fun a ha b hb => ?_) (sortOn_sorted key part)
  exact hsame a ((sortOn_perm key part).mem_iff.1 ha) b ((sortOn_perm key part).mem_iff.1 hb)

/-- **One rank** is sorted by the key of the strategy, and each run is rearranged. -/
theorem orderPartition_runs (hscores : scores.isSome = policy.scoring.isSome)
    (h : ∀ t ∈ part, Comparable streaming scores t) :
    RunsBy ((Strategy.of policy).key streaming scores) (rearranged policy) part
      (orderPartition part policy streaming scores).1 := by
  cases hmap : scores with
  | some m =>
    rw [hmap, Option.isSome_some] at hscores
    have hstrategy : Strategy.of policy = .score := by rw [Strategy.of, if_pos hscores.symm]
    have hrearranged : rearranged policy = id := by
      funext run
      rw [rearranged, if_pos hscores.symm]
      rfl
    have hsort : (orderPartition part policy streaming (some m)).1 =
        sortOn (Strategy.key streaming (some m) .score) part := by
      refine insertionSort_eq_sortOn fun a ha b hb => ?_
      have hle := compares_le_iff (cmpOrEq_compares (h b hb).score (h a ha).score)
      rw [hmap] at hle
      exact hle
    rw [hstrategy, hrearranged, hsort]
    exact RunsBy.sortOn _ part
  | none =>
    rw [hmap, Option.isSome_none] at hscores
    have hrearranged : rearranged policy = tied policy.scorecard.demotion.minSamples := by
      funext run
      rw [rearranged, ← hscores, if_neg Bool.false_ne_true]
    rw [hrearranged]
    unfold Strategy.of orderPartition
    rw [← hscores, if_neg Bool.false_ne_true]
    dsimp only
    by_cases hcoding : policy.profile = some .coding
    · rw [if_pos hcoding, if_pos hcoding]
      refine applyOutcomeTiebreak_runs (fun a _ b _ => ?_) fun a _ b _ => ?_
      · show (compare (!isCodingTarget a).toNat (!isCodingTarget b).toNat).Compares
          (!isCodingTarget a) (!isCodingTarget b)
        have hlt : false < true := by decide
        cases isCodingTarget a <;> cases isCodingTarget b
        · exact rfl
        · exact hlt
        · exact hlt
        · exact rfl
      · show (isCodingTarget a == isCodingTarget b) =
          decide ((!isCodingTarget b) = !isCodingTarget a)
        cases isCodingTarget a <;> cases isCodingTarget b <;> rfl
    rw [if_neg hcoding, if_neg hcoding]
    by_cases hlarge : policy.profile = some .largeContext
    · rw [if_pos hlarge, if_pos hlarge]
      refine applyOutcomeTiebreak_runs (fun a _ b _ => ?_) fun a _ b _ => ?_
      · exact (compare_iff _ _).1 rfl
      · show decide (_ = _) = decide (_ = _)
        exact decide_eq_decide.2 eq_comm
    rw [if_neg hlarge, if_neg hlarge]
    by_cases hcost : policy.costAware = true
    · rw [if_pos hcost, if_pos hcost]
      have hcmp (a : ExecutionTarget) (ha : a ∈ part) (b : ExecutionTarget) (hb : b ∈ part) :=
        costCmp_compares (h a ha).cost (h b hb).cost
      refine applyOutcomeTiebreak_runs hcmp fun a ha b hb => ?_
      exact decide_eq_decide.2 ((compares_eq_iff (hcmp a ha b hb)).trans eq_comm)
    rw [if_neg hcost, if_neg hcost]
    by_cases hlatency : policy.latencyAware = true
    · rw [if_pos hlatency, if_pos hlatency]
      have hcmp (a : ExecutionTarget) (ha : a ∈ part) (b : ExecutionTarget) (hb : b ∈ part) :=
        latencyCmp_compares (h a ha).latency (h b hb).latency
      refine applyOutcomeTiebreak_runs hcmp fun a ha b hb => ?_
      exact decide_eq_decide.2 ((compares_eq_iff (hcmp a ha b hb)).trans eq_comm)
    rw [if_neg hlatency, if_neg hlatency]
    refine tiebreakRuns_runs le_rfl (fun _ _ _ _ => (decide_eq_true rfl).symm) ?_
    exact List.pairwise_of_forall fun _ _ => le_refl ()

end Rank

section Survivors

variable (survivors : List ExecutionTarget) (policy : RoutingPolicy) (streaming : Bool)
  (scores : Option (OrdMap String F64))

theorem demoteRank_le (t : ExecutionTarget) : demoteRank t ≤ 2 := by
  unfold demoteRank
  split_ifs <;> omega

theorem demoteRank_eq_zero (hno : noAccountDemoted survivors = 0)
    (hscorecard : scorecardDemoted survivors = []) : ∀ t ∈ survivors, demoteRank t = 0 := by
  intro t ht
  have hhealthy : t.healthyAccounts ≠ some 0 := by
    intro hzero
    have hmem : t ∈ survivors.filter fun c => c.healthyAccounts = some 0 :=
      List.mem_filter.2 ⟨ht, by simpa using hzero⟩
    rw [List.length_eq_zero_iff.1 hno] at hmem
    cases hmem
  have htier : (t.outcome.any fun o => o.tier = .demoted) = false := by
    rw [Bool.eq_false_iff]
    intro hdemoted
    obtain ⟨o, ho, htier⟩ := (Option.any_eq_true _ _).1 hdemoted
    have hmem : (t.id, o) ∈ scorecardDemoted survivors := by
      refine List.mem_filterMap.2 ⟨t, List.mem_filter.2 ⟨ht, by simpa using hhealthy⟩, ?_⟩
      simp [ho, Option.filter, htier]
    rw [hscorecard] at hmem
    cases hmem
  rw [demoteRank, if_neg hhealthy, if_neg (by simp [htier])]

/-- **The survivors are ordered rank by rank**, each in the order in which it was declared. -/
theorem orderSurvivors_eq :
    (orderSurvivors survivors policy streaming scores).1 =
      [0, 1, 2].flatMap fun r =>
        (orderPartition (survivors.filter fun t => demoteRank t = r) policy streaming scores).1 := by
  have hsorted : (if 0 < noAccountDemoted survivors ∨ (scorecardDemoted survivors).isEmpty = false
      then sortBy (fun a b => compare (demoteRank a) (demoteRank b)) survivors else survivors) =
      sortOn demoteRank survivors := by
    split_ifs with hdemoted
    · exact insertionSort_eq_sortOn fun a _ b _ => compares_le_iff ((compare_iff _ _).1 rfl)
    · obtain ⟨hno, hscorecard⟩ := not_or.1 hdemoted
      have hzero := demoteRank_eq_zero survivors (by omega) (by simpa using hscorecard)
      symm
      apply sortOn_of_sorted
      refine List.Pairwise.imp_of_mem ?_ (List.pairwise_of_forall fun _ _ => trivial)
      intro a b ha hb _
      rw [hzero a ha, hzero b hb]
  have hle := sortOn_sorted demoteRank survivors
  have hfilter := filter_sortOn demoteRank survivors
  unfold orderSurvivors partitionPoint
  dsimp only
  simp only [Bool.or_eq_true, decide_eq_true_eq, Bool.not_eq_true'] at hsorted ⊢
  rw [hsorted]
  generalize sortOn demoteRank survivors = l at hle hfilter ⊢
  have htake (p : ExecutionTarget → Bool) (l : List ExecutionTarget) :
      l.take (l.takeWhile p).length = l.takeWhile p :=
    (List.prefix_iff_eq_take.1 (List.takeWhile_prefix p)).symm
  have hdrop (p : ExecutionTarget → Bool) (l : List ExecutionTarget) :
      l.drop (l.takeWhile p).length = l.dropWhile p := by
    have happend : l.take (l.takeWhile p).length ++ l.drop (l.takeWhile p).length =
        l.takeWhile p ++ l.dropWhile p := by
      rw [List.take_append_drop, List.takeWhile_append_dropWhile]
    rw [htake] at happend
    exact List.append_cancel_left happend
  have hrest := dropWhile_eq_filter (k := 0) (fun a _ => rfl) hle fun a _ => Nat.zero_le _
  have hlerest : (l.filter fun t => demoteRank t ≠ 0).Pairwise fun a b =>
      demoteRank a ≤ demoteRank b := hle.filter _
  have hpos : ∀ t ∈ l.filter fun t => demoteRank t ≠ 0, 1 ≤ demoteRank t := by
    intro t ht
    have hne : demoteRank t ≠ 0 := by simpa using (List.mem_filter.1 ht).2
    omega
  rw [hdrop, htake, hrest, Nat.add_sub_cancel_left, htake, hdrop,
    takeWhile_eq_filter (fun a _ => rfl) hle fun a _ => Nat.zero_le _,
    takeWhile_eq_filter (fun a _ => rfl) hlerest hpos,
    dropWhile_eq_filter (fun a _ => rfl) hlerest hpos, List.filter_filter, List.filter_filter]
  have hone : (l.filter fun t => decide (demoteRank t = 1) && decide (demoteRank t ≠ 0)) =
      l.filter fun t => demoteRank t = 1 := by
    refine List.filter_congr fun t _ => ?_
    rw [← Bool.decide_and, decide_eq_decide]
    omega
  have htwo : (l.filter fun t => decide (demoteRank t ≠ 1) && decide (demoteRank t ≠ 0)) =
      l.filter fun t => demoteRank t = 2 := by
    refine List.filter_congr fun t _ => ?_
    have hle2 := demoteRank_le t
    rw [← Bool.decide_and, decide_eq_decide]
    omega
  rw [hone, htwo, hfilter, hfilter, hfilter]
  simp

end Survivors

/-! ### The law -/

/-- `tieBreaks`: the runs whose members all qualify are put in the order of their health. -/
structure OrderingLaw (tieBreaks : Bool) (policy : RoutingPolicy) (streaming : Bool)
    (scores : Option (OrdMap String F64)) (declared result : List ExecutionTarget) : Prop where
  ranks : result.Pairwise fun a b => demoteRank a ≤ demoteRank b
  keys : ∀ r, (result.filter fun t => demoteRank t = r).Pairwise fun a b =>
    (Strategy.of policy).key streaming scores a ≤ (Strategy.of policy).key streaming scores b
  runs : ∀ r k, (result.filter fun t =>
      decide (demoteRank t = r) && decide ((Strategy.of policy).key streaming scores t = k)) =
    let run := declared.filter fun t =>
      decide (demoteRank t = r) && decide ((Strategy.of policy).key streaming scores t = k)
    if tieBreaks && run.all (qualifies policy.scorecard.demotion.minSamples) then
      sortOn healthPlace run
    else run

section Law

variable {streaming : Bool} {scores : Option (OrdMap String F64)} {policy : RoutingPolicy}
  {survivors : List ExecutionTarget}

theorem mem_orderPartition {part : List ExecutionTarget} {t : ExecutionTarget} :
    t ∈ (orderPartition part policy streaming scores).1 ↔ t ∈ part :=
  (orderPartition_perm part policy streaming scores).mem_iff

theorem filter_orderSurvivors (r : ℕ) :
    ((orderSurvivors survivors policy streaming scores).1.filter fun t => demoteRank t = r) =
      (orderPartition (survivors.filter fun t => demoteRank t = r) policy streaming scores).1 := by
  have hpart (s : ℕ) : ((orderPartition (survivors.filter fun t => demoteRank t = s) policy
      streaming scores).1.filter fun t => demoteRank t = r) =
      if s = r then (orderPartition (survivors.filter fun t => demoteRank t = s) policy streaming
        scores).1 else [] := by
    have hrank : ∀ t ∈ (orderPartition (survivors.filter fun t => demoteRank t = s) policy
        streaming scores).1, demoteRank t = s := by
      intro t ht
      simpa using (List.mem_filter.1 (mem_orderPartition.1 ht)).2
    split_ifs with hs
    · rw [List.filter_eq_self]
      intro t ht
      simpa using (hrank t ht).trans hs
    · rw [List.filter_eq_nil_iff]
      intro t ht
      rw [hrank t ht]
      simpa using hs
  rw [orderSurvivors_eq]
  simp only [List.flatMap_cons, List.flatMap_nil, List.filter_append, hpart, List.append_nil]
  by_cases hr : r ≤ 2
  · obtain rfl | rfl | rfl : r = 0 ∨ r = 1 ∨ r = 2 := by omega
    all_goals simp
  · have hnone : (survivors.filter fun t => decide (demoteRank t = r)) = [] := by
      rw [List.filter_eq_nil_iff]
      intro t _
      have hle := demoteRank_le t
      simp only [decide_eq_true_eq]
      omega
    have hempty : (orderPartition [] policy streaming scores).1 = [] :=
      List.perm_nil.1 (orderPartition_perm [] policy streaming scores)
    rw [hnone, hempty, if_neg (by omega), if_neg (by omega), if_neg (by omega)]
    rfl

theorem orderSurvivors_law (hscores : scores.isSome = policy.scoring.isSome)
    (h : ∀ t ∈ survivors, Comparable streaming scores t) :
    OrderingLaw policy.scoring.isNone policy streaming scores survivors
      (orderSurvivors survivors policy streaming scores).1 := by
  have hruns (r : ℕ) : RunsBy ((Strategy.of policy).key streaming scores) (rearranged policy)
      (survivors.filter fun t => demoteRank t = r) (orderPartition
        (survivors.filter fun t => demoteRank t = r) policy streaming scores).1 :=
    orderPartition_runs hscores fun t ht => h t (List.mem_of_mem_filter ht)
  constructor
  · rw [orderSurvivors_eq]
    have hrank {r : ℕ} {t : ExecutionTarget} (ht : t ∈ (orderPartition (survivors.filter fun t =>
        demoteRank t = r) policy streaming scores).1) : demoteRank t = r := by
      simpa using (List.mem_filter.1 (mem_orderPartition.1 ht)).2
    rw [List.pairwise_flatMap]
    constructor
    · intro r _
      refine List.Pairwise.imp_of_mem ?_ (List.pairwise_of_forall fun _ _ => trivial)
      intro a b ha hb _
      rw [hrank ha, hrank hb]
    · have hlt : [0, 1, 2].Pairwise fun r s : ℕ => r ≤ s := by decide
      refine hlt.imp fun hle a ha b hb => ?_
      rw [hrank ha, hrank hb]
      exact hle
  · intro r
    rw [filter_orderSurvivors]
    exact (hruns r).sorted
  · intro r k
    have hrun := (hruns r).run k
    rw [← filter_orderSurvivors, List.filter_filter, List.filter_filter] at hrun
    have hcomm (l : List ExecutionTarget) : (l.filter fun t => decide (demoteRank t = r) &&
        decide ((Strategy.of policy).key streaming scores t = k)) =
        l.filter fun t => decide ((Strategy.of policy).key streaming scores t = k) &&
          decide (demoteRank t = r) :=
      List.filter_congr fun t _ => Bool.and_comm _ _
    dsimp only
    rw [hcomm, hcomm, hrun, rearranged]
    cases hscoring : policy.scoring with
    | some s => rfl
    | none =>
      rw [Option.isSome_none, if_neg Bool.false_ne_true, Option.isNone_none, Bool.true_and]
      exact tied_eq fun t ht => (h t (List.mem_of_mem_filter ht)).health

variable (req : AiRequest) (routeName : String) (require : RouteRequire)
  (candidates : List ExecutionTarget)

/-- The scores that the survivors are ranked by. -/
def rankingScores (survivors : List ExecutionTarget) (policy : RoutingPolicy) (streaming : Bool) :
    Option (OrdMap String F64) :=
  policy.scoring.map fun _ =>
    OrdMap.ofList ((routeScores survivors policy streaming
      (QualityContext.new survivors policy)).map fun s => (s.targetId, s.score))

theorem survivors_eq_eligible :
    (filterLoop (rejection req require policy) (visionDegradable req require policy)
      candidates).1.survivors = eligible req require candidates policy := by
  rw [filterLoop_survivors _ (rejection_relaxes req require policy), admitted_strict,
    admitted_relaxed, eligible]
  simp only [visionDegradable_iff]

theorem planRoute_candidates_eq :
    (planRoute req routeName require candidates policy).candidates =
      (orderSurvivors (eligible req require candidates policy) policy
        (Needs.of req require).streaming
        (rankingScores (eligible req require candidates policy) policy
          (Needs.of req require).streaming)).1 := by
  rw [← survivors_eq_eligible req require candidates]
  rfl

/-- **The ordering law**: by rank, then by the key of the strategy, then as declared; a run of equal
keys that all qualify is put in the order of its health, unless targets are ranked by score. -/
theorem planRoute_ordering_law (h : ∀ t ∈ eligible req require candidates policy,
      Comparable (Needs.of req require).streaming
        (rankingScores (eligible req require candidates policy) policy
          (Needs.of req require).streaming) t) :
    OrderingLaw policy.scoring.isNone policy (Needs.of req require).streaming
      (rankingScores (eligible req require candidates policy) policy
        (Needs.of req require).streaming)
      (eligible req require candidates policy)
      (planRoute req routeName require candidates policy).candidates := by
  rw [planRoute_candidates_eq]
  refine orderSurvivors_law ?_ h
  rw [rankingScores, Option.isSome_map]

end Law

/-! ### Ranking by score -/

def helloRequest : AiRequest where
  id := "req_1"
  model := "coding"
  messages := [{ role := .user, content := [.text "hello"] }]

/-- A target with evidence. -/
def proven (provider : String) (healthFactor : F32) : ExecutionTarget :=
  { ExecutionTarget.new provider "k3" .modelApi with
    outcome := some { (default : OutcomeSignal) with samples := 100, healthFactor := healthFactor } }

theorem planRoute_ordering_law_proven :
    OrderingLaw true {} false none
      (eligible helloRequest {} [proven "kimi" (Fp.ofDecimal 2 1), proven "zai" (Fp.ofDecimal 9 1)]
        {})
      (planRoute helloRequest "coding" {}
        [proven "kimi" (Fp.ofDecimal 2 1), proven "zai" (Fp.ofDecimal 9 1)] {}).candidates := by
  refine @planRoute_ordering_law {} helloRequest "coding" {} _ fun t ht => ?_
  have hmem : t ∈ [proven "kimi" (Fp.ofDecimal 2 1), proven "zai" (Fp.ofDecimal 9 1)] := by
    unfold eligible at ht
    split_ifs at ht
    · exact List.mem_of_mem_filter ht
    · exact List.mem_of_mem_filter ht
    · cases ht
  simp only [List.mem_cons, List.not_mem_nil, or_false] at hmem
  rcases hmem with rfl | rfl
  · exact ⟨fun _ hc => (by cases hc), fun _ hms => (by cases hms), rfl, by decide +kernel⟩
  · exact ⟨fun _ hc => (by cases hc), fun _ hms => (by cases hms), rfl, by decide +kernel⟩

/-- Targets are ranked by score, to which their outcomes add nothing. -/
def weightless : RoutingPolicy where
  scoring := some {}
  scorecard := { scoreWeight := Fp.zero }

/-- Two targets of one score stay as declared, although the second one is healthier. -/
theorem planRoute_score_not_tieBroken :
    ¬ ∀ (req : AiRequest) (routeName : String) (require : RouteRequire)
      (candidates : List ExecutionTarget) (policy : RoutingPolicy),
      (∀ t ∈ candidates, (∀ c, t.cost = some c → c.blendedPerMtok.isNan = false) ∧
        ∀ ms, latencySignal (Needs.of req require).streaming t = some ms → ms.isNan = false) →
        OrderingLaw true policy (Needs.of req require).streaming
          (rankingScores (eligible req require candidates policy) policy
            (Needs.of req require).streaming)
          (eligible req require candidates policy)
          (planRoute req routeName require candidates policy).candidates := by
  intro h
  have hlaw := h helloRequest "coding" {}
    [proven "kimi" (Fp.ofDecimal 2 1), proven "zai" (Fp.ofDecimal 9 1)] weightless ?_
  · have hrun := hlaw.runs 0 ((Strategy.of weightless).key false
      (rankingScores [proven "kimi" (Fp.ofDecimal 2 1), proven "zai" (Fp.ofDecimal 9 1)] weightless
        false) (proven "kimi" (Fp.ofDecimal 2 1)))
    revert hrun
    decide +kernel
  · intro t ht
    simp only [List.mem_cons, List.not_mem_nil, or_false] at ht
    rcases ht with rfl | rfl
    · exact ⟨fun _ hc => (by cases hc), fun _ hms => (by cases hms)⟩
    · exact ⟨fun _ hc => (by cases hc), fun _ hms => (by cases hms)⟩

end Router

end Switchback
