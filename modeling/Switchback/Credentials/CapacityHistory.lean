import Mathlib.Data.Finset.Card
import Switchback.Credentials.StrongAliases

/-!
# The history of capacity samples

A run sorts the samples it has, newest first, keeps eight of each group, sorts what is left for
storing, and drops a sample that repeats the one before it.  A file that is read again brings its
samples again.
-/

namespace Switchback

namespace Enrollment

open Lib Runs

/-! ### The steps of a run -/

def recency (a : AccountCapacityHealth) : (ℤ ×ₗ ℤ ×ₗ String)ᵒᵈ :=
  OrderDual.toDual (toLex (a.sampledAtMs, toLex (a.ingestedAtMs, a.sourceRevision)))

/-- The samples that a run has, one for each window. -/
def samplesOf (env : Env) (current : ProviderAccountSnapshot) (batches : List ImportBatch) :
    List AccountCapacityHealth :=
  flatten ((assignments env current batches).foldl putCapacity current.capacity)

/-- What is retained of the samples, in the order in which it is stored. -/
def stored (samples : List AccountCapacityHealth) : List AccountCapacityHealth :=
  sortOn (fun a => toLex (a.accountId, toLex (optionKey a.model,
      toLex ((a.windows.headD default).windowKind.ord.1,
        toLex ((a.windows.headD default).windowKind.ord.2, a.sampledAtMs)))))
    (retainEight (sortOn recency samples))

/-- What tells the samples of a group apart. -/
def pair (a : AccountCapacityHealth) : ℤ × String := (a.sampledAtMs, a.sourceRevision)

def ident (a : AccountCapacityHealth) : SampleKey × ℤ × String := (sampleKey a, pair a)

def ofGroup (g : SampleKey) (l : List AccountCapacityHealth) : List AccountCapacityHealth :=
  l.filter fun a => sampleKey a = g

def newestEight (g : SampleKey) (samples : List AccountCapacityHealth) :
    List AccountCapacityHealth :=
  (ofGroup g (sortOn recency samples)).take 8

theorem sameSample_iff (a b : AccountCapacityHealth) : sameSample a b = true ↔ ident a = ident b := by
  simp only [sameSample, ident, pair, Bool.and_eq_true, decide_eq_true_eq, Prod.mk.injEq, and_assoc]

theorem ofGroup_append (g : SampleKey) (l l' : List AccountCapacityHealth) :
    ofGroup g (l ++ l') = ofGroup g l ++ ofGroup g l' := List.filter_append l l'

/-- One sample of `retainEight`, with the samples so far and their number in each group. -/
def retainStep (s : List AccountCapacityHealth × (SampleKey → ℕ)) (sample : AccountCapacityHealth) :
    List AccountCapacityHealth × (SampleKey → ℕ) :=
  if 8 ≤ s.2 (sampleKey sample) then s
  else (s.1 ++ [sample], Function.update s.2 (sampleKey sample) (s.2 (sampleKey sample) + 1))

theorem foldl_retainStep (l : List AccountCapacityHealth) (g : SampleKey) :
    ofGroup g (l.foldl retainStep ([], fun _ => 0)).1 = (ofGroup g l).take 8 ∧
      (l.foldl retainStep ([], fun _ => 0)).2 g =
        (ofGroup g (l.foldl retainStep ([], fun _ => 0)).1).length := by
  induction l using List.reverseRecOn generalizing g with
  | nil => exact ⟨rfl, rfl⟩
  | append_singleton l a ih =>
    rw [List.foldl_append, List.foldl_cons, List.foldl_nil]
    generalize l.foldl retainStep _ = s at ih ⊢
    unfold retainStep
    obtain ⟨hkept, hlength⟩ := ih g
    have hcut := congrArg List.length hkept
    rw [List.length_take] at hcut
    by_cases ha : sampleKey a = g
    · have hone : ofGroup g [a] = [a] := by simp [ofGroup, ha]
      rw [ofGroup_append, hone, ha]
      by_cases hfull : 8 ≤ s.2 g
      · rw [if_pos hfull]
        refine ⟨?_, hlength⟩
        rw [hkept, List.take_append_of_le_length (by omega)]
      · rw [if_neg hfull]
        dsimp only
        rw [ofGroup_append, hone, hkept, Function.update_self, hlength, List.length_append, hkept]
        refine ⟨?_, rfl⟩
        rw [List.take_of_length_le (by omega), List.take_of_length_le]
        rw [List.length_append, List.length_singleton]
        omega
    · have hnone : ofGroup g [a] = [] := by simp [ofGroup, ha]
      rw [ofGroup_append, hnone, List.append_nil]
      split_ifs with hfull
      · exact ⟨hkept, hlength⟩
      · dsimp only
        rw [ofGroup_append, hnone, List.append_nil, Function.update_of_ne (Ne.symm ha)]
        exact ⟨hkept, hlength⟩

theorem ofGroup_retainEight (g : SampleKey) (l : List AccountCapacityHealth) :
    ofGroup g (retainEight l) = (ofGroup g l).take 8 :=
  (foldl_retainStep l g).1

/-! ### Dropping repetitions -/

section Dedup

variable {α β : Type} {same : α → α → Bool} {f : α → β}

/-- Between two copies there are only copies. -/
def Together (f : α → β) (l : List α) : Prop :=
  ∀ x y z, [x, y, z].Sublist l → f x = f z → f x = f y

theorem dedupBy_cons_cons (a b : α) (l : List α) :
    dedupBy same (a :: b :: l) =
      if same b a then a :: dedupBy.go same a l else a :: dedupBy same (b :: l) := by
  cases h : same b a <;> simp [dedupBy, dedupBy.go, h]

theorem mem_map_dedupBy (hsame : ∀ a b, same a b = true ↔ f a = f b) (l : List α) (x : β) :
    x ∈ (dedupBy same l).map f ↔ x ∈ l.map f := by
  cases l with
  | nil => rfl
  | cons a l =>
    induction l generalizing a with
    | nil => rfl
    | cons b l ih =>
      rw [dedupBy_cons_cons]
      split_ifs with hab
      · have hlike := ih a
        rw [dedupBy] at hlike
        rw [hlike, List.map_cons, List.map_cons, List.map_cons, (hsame b a).1 hab]
        simp
      · rw [List.map_cons, List.mem_cons, ih b, List.map_cons (a := a), List.mem_cons]

theorem dedupBy_sublist (l : List α) : (dedupBy same l).Sublist l := by
  cases l with
  | nil => exact .slnil
  | cons a l =>
    induction l generalizing a with
    | nil => exact .refl _
    | cons b l ih =>
      rw [dedupBy_cons_cons]
      split_ifs
      · exact (ih a).trans (.cons_cons a (List.sublist_cons_self b l))
      · exact .cons_cons a (ih b)

theorem together_cons_like {a b : α} (hab : f b = f a) (l : List α) :
    Together f (a :: b :: l) ↔ Together f (a :: l) := by
  constructor
  · intro h x y z hsub
    exact h x y z (hsub.trans (.cons_cons a (List.sublist_cons_self b l)))
  · intro h x y z hsub hxz
    rcases List.sublist_cons_iff.1 hsub with hsub | ⟨r, hr, hsub⟩
    · rcases List.sublist_cons_iff.1 hsub with hsub | ⟨r, hr, hsub⟩
      · exact h x y z (hsub.trans (List.sublist_cons_self a l)) hxz
      · cases hr
        rw [hab] at hxz ⊢
        exact h a y z (.cons_cons a hsub) hxz
    · cases hr
      rcases List.sublist_cons_iff.1 hsub with hsub | ⟨r, hr, hsub⟩
      · exact h a y z (.cons_cons a hsub) hxz
      · cases hr
        exact hab.symm

theorem together_cons_other {a b : α} (hab : f b ≠ f a) (l : List α) :
    Together f (a :: b :: l) ↔ f a ∉ (b :: l).map f ∧ Together f (b :: l) := by
  constructor
  · intro h
    refine ⟨fun hmem => ?_, fun x y z hsub => h x y z (hsub.trans (List.sublist_cons_self _ _))⟩
    obtain ⟨z, hz, hfz⟩ := List.mem_map.1 hmem
    rcases List.mem_cons.1 hz with rfl | hz
    · exact hab hfz
    · have hsub : [a, b, z].Sublist (a :: b :: l) :=
        .cons_cons a (.cons_cons b (List.singleton_sublist.2 hz))
      exact hab (h a b z hsub hfz.symm).symm
  · rintro ⟨hnot, h⟩ x y z hsub hxz
    rcases List.sublist_cons_iff.1 hsub with hsub | ⟨r, hr, hsub⟩
    · exact h x y z hsub hxz
    · cases hr
      exact absurd (List.mem_map.2 ⟨z, hsub.subset (by simp), hxz.symm⟩) hnot

theorem nodup_dedupBy_iff (hsame : ∀ a b, same a b = true ↔ f a = f b) (l : List α) :
    ((dedupBy same l).map f).Nodup ↔ Together f l := by
  cases l with
  | nil =>
    refine iff_of_true List.nodup_nil fun x y z hsub => ?_
    cases hsub
  | cons a l =>
    induction l generalizing a with
    | nil =>
      refine iff_of_true (List.nodup_singleton _) fun x y z hsub => ?_
      exact absurd hsub.length_le (by simp)
    | cons b l ih =>
      rw [dedupBy_cons_cons]
      split_ifs with hab
      · rw [together_cons_like ((hsame b a).1 hab), ← ih a]
        rfl
      · have hne : f b ≠ f a := fun h => hab ((hsame b a).2 h)
        rw [together_cons_other hne, ← ih b, List.map_cons, List.nodup_cons,
          mem_map_dedupBy hsame]

end Dedup

/-! ### The newest of a group -/

section Newest

variable (samples : List AccountCapacityHealth) (g : SampleKey)

/-- Of every group the least of eight and all distinct samples, each once, and the newest. -/
structure KeepsNewest (samples kept : List AccountCapacityHealth) (g : SampleKey) : Prop where
  once : ((ofGroup g kept).map pair).Nodup
  count : (ofGroup g kept).length = min 8 ((ofGroup g samples).map pair).toFinset.card
  from_samples : ∀ p ∈ (ofGroup g kept).map pair, p ∈ (ofGroup g samples).map pair
  newest : ∀ p ∈ (ofGroup g samples).map pair, p ∉ (ofGroup g kept).map pair →
    ∀ q ∈ (ofGroup g kept).map pair, p.1 ≤ q.1

/-- The first eight have no copies, or leave no distinct sample out. -/
def Uncrowded : Prop :=
  ((newestEight g samples).map pair).Nodup ∨
    ∀ p ∈ (ofGroup g samples).map pair, p ∈ (newestEight g samples).map pair

variable {samples g}

theorem mem_ofGroup_sortOn (p : ℤ × String) :
    p ∈ (ofGroup g (sortOn recency samples)).map pair ↔ p ∈ (ofGroup g samples).map pair :=
  (((sortOn_perm recency samples).filter _).map pair).mem_iff

/-- What is stored of a group are its first eight. -/
theorem mem_stored (p : ℤ × String) :
    p ∈ (ofGroup g (dedupBy sameSample (stored samples))).map pair ↔
      p ∈ (newestEight g samples).map pair := by
  have hgroup (l : List AccountCapacityHealth) :
      p ∈ (ofGroup g l).map pair ↔ (g, p) ∈ l.map ident := by
    simp only [ofGroup, ident, List.mem_map, List.mem_filter, decide_eq_true_eq, Prod.mk.injEq]
    exact exists_congr fun a => and_assoc
  rw [hgroup, mem_map_dedupBy sameSample_iff, ← hgroup, newestEight, ← ofGroup_retainEight]
  exact (((sortOn_perm _ _).filter _).map pair).mem_iff

theorem newestEight_newest {p q : ℤ × String} (hp : p ∈ (ofGroup g samples).map pair)
    (hout : p ∉ (newestEight g samples).map pair) (hq : q ∈ (newestEight g samples).map pair) :
    p.1 ≤ q.1 := by
  rw [← mem_ofGroup_sortOn] at hp
  have hsorted : (ofGroup g (sortOn recency samples)).Pairwise fun a b => recency a ≤ recency b :=
    (sortOn_sorted recency samples).filter _
  rw [← List.take_append_drop 8 (ofGroup g _), List.map_append, List.mem_append] at hp
  rw [← List.take_append_drop 8 (ofGroup g _), List.pairwise_append] at hsorted
  obtain ⟨a, ha, rfl⟩ := List.mem_map.1 (hp.resolve_left hout)
  obtain ⟨b, hb, rfl⟩ := List.mem_map.1 hq
  have hle := OrderDual.toDual_le_toDual.1 (hsorted.2.2 b hb a ha)
  rcases Prod.Lex.le_iff.1 hle with hlt | ⟨heq, -⟩
  · exact hlt.le
  · exact heq.le

theorem card_take_iff {γ : Type} [DecidableEq γ] (l : List γ) :
    (l.take 8).toFinset.card = min 8 l.toFinset.card ↔
      (l.take 8).Nodup ∨ ∀ p ∈ l, p ∈ l.take 8 := by
  have hsub : (l.take 8).toFinset ⊆ l.toFinset := fun p hp =>
    List.mem_toFinset.2 (List.mem_of_mem_take (List.mem_toFinset.1 hp))
  have hle := Finset.card_le_card hsub
  have hlength := List.toFinset_card_le (l.take 8)
  have height := List.length_take_le 8 l
  constructor
  · intro h
    rcases le_or_gt l.toFinset.card 8 with hfew | hmany
    · rw [min_eq_right hfew] at h
      have heq := Finset.eq_of_subset_of_card_le hsub h.ge
      exact .inr fun p hp => List.mem_toFinset.1 (heq ▸ List.mem_toFinset.2 hp)
    · left
      rw [← Multiset.coe_nodup, ← Multiset.toFinset_card_eq_card_iff_nodup]
      show (l.take 8).toFinset.card = (l.take 8).length
      omega
  · rintro (hnodup | hall)
    · rcases le_or_gt l.length 8 with hshort | hlong
      · have hcard := List.toFinset_card_le l
        rw [List.take_of_length_le hshort] at *
        omega
      · have hcard := List.toFinset_card_of_nodup hnodup
        rw [List.length_take_of_le hlong.le] at hcard
        omega
    · have hsup : l.toFinset ⊆ (l.take 8).toFinset := fun p hp =>
        List.mem_toFinset.2 (hall p (List.mem_toFinset.1 hp))
      have hge := Finset.card_le_card hsup
      omega

theorem uncrowded_iff : Uncrowded samples g ↔
    ((newestEight g samples).map pair).toFinset.card =
      min 8 ((ofGroup g samples).map pair).toFinset.card := by
  have hset : ((ofGroup g samples).map pair).toFinset =
      ((ofGroup g (sortOn recency samples)).map pair).toFinset := by
    ext p
    rw [List.mem_toFinset, List.mem_toFinset, mem_ofGroup_sortOn]
  unfold Uncrowded newestEight
  rw [List.map_take, hset, card_take_iff]
  simp only [mem_ofGroup_sortOn]

theorem nodup_ident_iff (l : List AccountCapacityHealth) :
    (l.map ident).Nodup ↔ ∀ g, ((ofGroup g l).map pair).Nodup := by
  simp only [List.Nodup, List.pairwise_map, ofGroup, List.pairwise_filter, decide_eq_true_eq]
  constructor
  · intro h g
    refine h.imp fun hne ha hb hpair => hne ?_
    rw [ident, ident, ha, hb, hpair]
  · intro h
    rw [List.pairwise_iff_forall_sublist]
    intro a b hsub hident
    obtain ⟨hkey, hpair⟩ := Prod.mk.inj hident
    exact List.pairwise_iff_forall_sublist.1 (h (sampleKey b)) hsub hkey rfl hpair

/-- **What a run keeps.** -/
theorem keepsNewest_iff :
    (∀ g, KeepsNewest samples (dedupBy sameSample (stored samples)) g) ↔
      (∀ g, Uncrowded samples g) ∧ Together ident (stored samples) := by
  have hcount (g : SampleKey)
      (hnodup : ((ofGroup g (dedupBy sameSample (stored samples))).map pair).Nodup) :
      (ofGroup g (dedupBy sameSample (stored samples))).length =
        ((newestEight g samples).map pair).toFinset.card := by
    rw [← List.length_map pair, ← List.toFinset_card_of_nodup hnodup]
    congr 1
    ext p
    rw [List.mem_toFinset, List.mem_toFinset, mem_stored]
  rw [← nodup_dedupBy_iff sameSample_iff, nodup_ident_iff]
  constructor
  · intro h
    refine ⟨fun g => uncrowded_iff.2 ?_, fun g => (h g).once⟩
    rw [← hcount g (h g).once, (h g).count]
  · rintro ⟨huncrowded, hnodup⟩ g
    refine ⟨hnodup g, (hcount g (hnodup g)).trans (uncrowded_iff.1 (huncrowded g)), fun p hp => ?_,
      fun p hp hout q hq => ?_⟩
    · rw [mem_stored, newestEight, List.map_take] at hp
      exact (mem_ofGroup_sortOn p).1 (List.mem_of_mem_take hp)
    · rw [mem_stored] at hout hq
      exact newestEight_newest hp hout hq

end Newest

/-! ### The next run -/

section Again

variable {samples again : List AccountCapacityHealth} {g : SampleKey}

/-- What is kept of a group stays as it is when `again` is sorted: among the newest eight a sample
that was not there before is the copy of one that was kept, and either they have no copies or they
leave out no sample that was there before. -/
structure BringsNothing (samples again : List AccountCapacityHealth) (g : SampleKey) : Prop where
  behind : ∀ a ∈ newestEight g again, a ∈ samples ∨ pair a ∈ (newestEight g samples).map pair
  uncrowded : ((newestEight g again).map pair).Nodup ∨
    ∀ p ∈ (ofGroup g again).map pair, p ∈ (ofGroup g samples).map pair →
      p ∈ (newestEight g again).map pair

theorem mem_newestEight {a : AccountCapacityHealth} (h : a ∈ newestEight g samples) :
    a ∈ samples ∧ sampleKey a = g := by
  obtain ⟨hmem, hkey⟩ := List.mem_filter.1 (List.mem_of_mem_take h)
  exact ⟨(sortOn_perm recency samples).mem_iff.1 hmem, of_decide_eq_true hkey⟩

theorem mem_newestEight_of_short (h : (newestEight g samples).length < 8)
    {p : ℤ × String} (hp : p ∈ (ofGroup g samples).map pair) :
    p ∈ (newestEight g samples).map pair := by
  rw [← mem_ofGroup_sortOn] at hp
  unfold newestEight at h ⊢
  rw [List.length_take] at h
  rwa [List.take_of_length_le (by omega)]

theorem mem_dedupBy_stored (h : ((newestEight g samples).map pair).Nodup)
    {a : AccountCapacityHealth} (ha : a ∈ newestEight g samples) :
    a ∈ dedupBy sameSample (stored samples) := by
  have hstored (b : AccountCapacityHealth) (hb : sampleKey b = g) :
      b ∈ stored samples ↔ b ∈ newestEight g samples := by
    rw [stored, (sortOn_perm _ _).mem_iff, newestEight, ← ofGroup_retainEight, ofGroup,
      List.mem_filter]
    simp [hb]
  have hkey := (mem_newestEight ha).2
  have hident : ident a ∈ (dedupBy sameSample (stored samples)).map ident := by
    rw [mem_map_dedupBy sameSample_iff]
    exact List.mem_map_of_mem ((hstored a hkey).2 ha)
  obtain ⟨b, hb, heq⟩ := List.mem_map.1 hident
  obtain ⟨hgroup, hpair⟩ := Prod.mk.inj heq
  have hmem := (hstored b (hgroup.trans hkey)).1 ((dedupBy_sublist _).subset hb)
  rwa [← List.inj_on_of_nodup_map h hmem ha hpair]

theorem length_newer_lt {a : AccountCapacityHealth} (ha : a ∈ newestEight g again)
    {newer : List AccountCapacityHealth} (hnodup : newer.Nodup)
    (hnewer : ∀ e ∈ newer, (e ∈ again ∧ sampleKey e = g) ∧ recency e < recency a) :
    newer.length < 8 := by
  have hsorted : (ofGroup g (sortOn recency again)).Pairwise fun a b => recency a ≤ recency b :=
    (sortOn_sorted recency again).filter _
  rw [← List.take_append_drop 8 (ofGroup g _), List.pairwise_append] at hsorted
  have hfirst : a :: newer ⊆ newestEight g again := by
    refine List.cons_subset.2 ⟨ha, fun e he => ?_⟩
    obtain ⟨⟨hmem, hkey⟩, hlt⟩ := hnewer e he
    have hgroup : e ∈ ofGroup g (sortOn recency again) :=
      List.mem_filter.2 ⟨(sortOn_perm recency again).mem_iff.2 hmem, decide_eq_true hkey⟩
    rw [← List.take_append_drop 8 (ofGroup g _), List.mem_append] at hgroup
    exact hgroup.resolve_right fun hlate => hlt.not_ge (hsorted.2.2 a ha e hlate)
  have hcons : (a :: newer).Nodup := by
    refine List.nodup_cons.2 ⟨fun hmem => ?_, hnodup⟩
    exact lt_irrefl _ (hnewer a hmem).2
  have hle := (hcons.subperm hfirst).length_le
  have height := List.length_take_le 8 (ofGroup g (sortOn recency again))
  rw [List.length_cons] at hle
  exact hle.trans height

theorem recency_lt {a e : AccountCapacityHealth} (ha : a ∈ samples) (hkey : sampleKey a = g)
    (hout : pair a ∉ (newestEight g samples).map pair) (he : e ∈ newestEight g samples) :
    recency e < recency a := by
  have hsorted : (ofGroup g (sortOn recency samples)).Pairwise fun a b => recency a ≤ recency b :=
    (sortOn_sorted recency samples).filter _
  rw [← List.take_append_drop 8 (ofGroup g _), List.pairwise_append] at hsorted
  have hgroup : a ∈ ofGroup g (sortOn recency samples) :=
    List.mem_filter.2 ⟨(sortOn_perm recency samples).mem_iff.2 ha, decide_eq_true hkey⟩
  rw [← List.take_append_drop 8 (ofGroup g _), List.mem_append] at hgroup
  have hlate := hgroup.resolve_left fun hearly => hout (List.mem_map_of_mem hearly)
  refine lt_of_le_of_ne (hsorted.2.2 e he a hlate) fun heq => hout ?_
  have htriple := toLex.injective (OrderDual.toDual.injective heq)
  have hrest := toLex.injective (Prod.mk.inj htriple).2
  refine List.mem_map.2 ⟨e, he, ?_⟩
  rw [pair, pair, (Prod.mk.inj htriple).1, (Prod.mk.inj hrest).2]

/-- **The next run is inert**: where the first was not crowded, its newest samples are the newest of
the next run exactly when that brings nothing. -/
theorem newest_again_iff (huncrowded : Uncrowded samples g)
    (hkept : ∀ a ∈ dedupBy sameSample (stored samples), a ∈ again) :
    (∀ p, p ∈ (newestEight g again).map pair ↔ p ∈ (newestEight g samples).map pair) ↔
      BringsNothing samples again g := by
  have hfull : (∀ p ∈ (ofGroup g samples).map pair, p ∈ (newestEight g samples).map pair) ∨
      ((newestEight g samples).map pair).Nodup ∧ (newestEight g samples).length = 8 := by
    have height := List.length_take_le 8 (ofGroup g (sortOn recency samples))
    rcases huncrowded with hnodup | hall
    · by_cases hshort : (newestEight g samples).length < 8
      · exact .inl fun p hp => mem_newestEight_of_short hshort hp
      · exact .inr ⟨hnodup, le_antisymm height (not_lt.1 hshort)⟩
    · exact .inl hall
  have hlength := List.length_take_le 8 (ofGroup g (sortOn recency again))
  constructor
  · intro hsame
    refine ⟨fun a ha => .inr ((hsame _).1 (List.mem_map_of_mem ha)), ?_⟩
    rcases hfull with hall | ⟨hnodup, height⟩
    · exact .inr fun p _ hp => (hsame p).2 (hall p hp)
    · -- eight distinct samples in eight places
      left
      have hset : ((newestEight g again).map pair).toFinset =
          ((newestEight g samples).map pair).toFinset := by
        ext p
        rw [List.mem_toFinset, List.mem_toFinset, hsame]
      have hcard := List.toFinset_card_of_nodup hnodup
      have hle := List.toFinset_card_le ((newestEight g again).map pair)
      rw [List.length_map] at hcard hle
      rw [← Multiset.coe_nodup, ← Multiset.toFinset_card_eq_card_iff_nodup]
      show ((newestEight g again).map pair).toFinset.card = ((newestEight g again).map pair).length
      rw [List.length_map]
      refine le_antisymm hle ?_
      rw [hset, hcard, height]
      exact hlength
  · rintro ⟨hbehind, huncrowded'⟩
    have hsub : ∀ p ∈ (newestEight g again).map pair, p ∈ (newestEight g samples).map pair := by
      intro p hp
      obtain ⟨a, ha, rfl⟩ := List.mem_map.1 hp
      by_contra hout
      have hmem := (hbehind a ha).resolve_right hout
      have hkey := (mem_newestEight ha).2
      rcases hfull with hall | ⟨hnodup, height⟩
      · exact hout (hall _ (List.mem_map_of_mem
          (List.mem_filter.2 ⟨hmem, decide_eq_true hkey⟩)))
      · -- the eight that were kept are newer
        have hlt := length_newer_lt ha hnodup.of_map fun e he =>
          ⟨⟨hkept e (mem_dedupBy_stored hnodup he), (mem_newestEight he).2⟩,
            recency_lt hmem hkey hout he⟩
        omega
    have hagain : ∀ p ∈ (newestEight g samples).map pair, p ∈ (ofGroup g again).map pair := by
      intro p hp
      rw [← mem_stored] at hp
      obtain ⟨a, ha, rfl⟩ := List.mem_map.1 hp
      obtain ⟨hmem, hkey⟩ := List.mem_filter.1 ha
      exact List.mem_map_of_mem (List.mem_filter.2 ⟨hkept a hmem, hkey⟩)
    refine fun p => ⟨hsub p, fun hp => ?_⟩
    rcases huncrowded' with hnodup | hall
    · by_cases hshort : (newestEight g again).length < 8
      · exact mem_newestEight_of_short hshort (hagain p hp)
      · have hsubset : ((newestEight g again).map pair).toFinset ⊆
            ((newestEight g samples).map pair).toFinset := fun q hq =>
          List.mem_toFinset.2 (hsub q (List.mem_toFinset.1 hq))
        have hcard := List.toFinset_card_of_nodup hnodup
        have hle := List.toFinset_card_le ((newestEight g samples).map pair)
        have height := List.length_take_le 8 (ofGroup g (sortOn recency samples))
        rw [List.length_map] at hcard hle
        have heq := Finset.eq_of_subset_of_card_le hsubset
          (hle.trans (height.trans (by omega)))
        exact List.mem_toFinset.1 (heq ▸ List.mem_toFinset.2 hp)
    · obtain ⟨a, ha, rfl⟩ := List.mem_map.1 hp
      obtain ⟨hmem, hkey⟩ := mem_newestEight ha
      exact hall _ (hagain _ hp)
        (List.mem_map_of_mem (List.mem_filter.2 ⟨hmem, decide_eq_true hkey⟩))

end Again

/-- What a run keeps is the newest of what it has, and stays so when the same files are composed
once more. -/
def HistoryKept (env : Env) (current : ProviderAccountSnapshot) (batches : List ImportBatch)
    (revision : ℕ) (nowMs : ℤ) : Prop :=
  let next := compose env current batches revision nowMs
  (∀ g, KeepsNewest (samplesOf env current batches) next.capacity g) ∧
    ∀ revision' nowMs' g p,
      p ∈ (ofGroup g (compose env next batches revision' nowMs').capacity).map pair ↔
        p ∈ (ofGroup g next.capacity).map pair

theorem windows_of_mem_samplesOf {env : Env} {current : ProviderAccountSnapshot}
    {batches : List ImportBatch} {a : AccountCapacityHealth}
    (h : a ∈ samplesOf env current batches) : ∃ w, a.windows = [w] := by
  obtain ⟨health, -, hmem⟩ := List.mem_flatMap.1 h
  obtain ⟨w, -, rfl⟩ := List.mem_map.1 hmem
  exact ⟨w, rfl⟩

theorem mem_samplesOf {env : Env} {current : ProviderAccountSnapshot} {batches : List ImportBatch}
    {a : AccountCapacityHealth} (h : a ∈ current.capacity) {w : CapacityWindow}
    (hw : a.windows = [w]) : a ∈ samplesOf env current batches := by
  have hfold (l : List (Observation × String)) (capacity : List AccountCapacityHealth)
      (ha : a ∈ capacity) : a ∈ l.foldl putCapacity capacity := by
    induction l generalizing capacity with
    | nil => exact ha
    | cons p l ih => exact ih _ (List.mem_append_left _ ha)
  refine List.mem_flatMap.2 ⟨a, hfold _ _ h, ?_⟩
  rw [hw, List.map_singleton, List.mem_singleton, ← hw]

/-- **When the history is kept**: no group is crowded, copies stand together, and the same batches
bring nothing to what the first run left. -/
theorem history_kept_iff (env : Env) (current : ProviderAccountSnapshot)
    (batches : List ImportBatch) (revision : ℕ) (nowMs : ℤ) :
    HistoryKept env current batches revision nowMs ↔
      (∀ g, Uncrowded (samplesOf env current batches) g) ∧
        Together ident (stored (samplesOf env current batches)) ∧
          ∀ g, BringsNothing (samplesOf env current batches)
            (samplesOf env (compose env current batches revision nowMs) batches) g := by
  have hcapacity (c : ProviderAccountSnapshot) (r : ℕ) (n : ℤ) :
      (compose env c batches r n).capacity = dedupBy sameSample (stored (samplesOf env c batches)) :=
    rfl
  have hkept : ∀ a ∈ dedupBy sameSample (stored (samplesOf env current batches)),
      a ∈ samplesOf env (compose env current batches revision nowMs) batches := by
    intro a ha
    have hstored := (sortOn_perm _ _).mem_iff.1 ((dedupBy_sublist _).subset ha)
    have hfirst : a ∈ newestEight (sampleKey a) (samplesOf env current batches) := by
      rw [newestEight, ← ofGroup_retainEight]
      exact List.mem_filter.2 ⟨hstored, decide_eq_true rfl⟩
    obtain ⟨w, hw⟩ := windows_of_mem_samplesOf (mem_newestEight hfirst).1
    exact mem_samplesOf ha hw
  unfold HistoryKept
  simp only [hcapacity, mem_stored, keepsNewest_iff, and_assoc, forall_const]
  refine and_congr_right fun huncrowded => and_congr_right fun _ => forall_congr' fun g => ?_
  exact newest_again_iff (huncrowded g) hkept

/-- A sample of the CodexBar history. -/
def usageAt (accountId : String) (time : ℤ) : AccountCapacityHealth where
  accountId := accountId
  model := none
  windows := [⟨.primary, none, .unknown, .unknown, .codexBar⟩]
  sampledAtMs := time
  ingestedAtMs := 10
  sourceRevision := "f1"
  freshness := .fresh

/-- A history of five lines about one account. -/
def fiveLines : ImportBatch where
  source := .codexBar
  fingerprint := some "f1"
  status := .ok
  detail := none
  observations := [1, 2, 3, 4, 5].map fun time =>
    { source := .codexBar
      recordKey := "line:" ++ toString time
      fingerprint := "f1"
      aliases := (uuidAlias (slotOf "default" uuidA)).toList
      credential := none
      capacity := [usageAt "" time]
      active := false
      runs := [] }

/-- The account and its five samples, as the first run stored them. -/
def afterFiveLines : ProviderAccountSnapshot where
  revision := 1
  accounts := [{
    id := idA
    provider := "openai"
    state := .enrolled
    aliases := [⟨.openAiAccountUuid, uuidA, uuidDisplay uuidA, .codexBar, "line:1", 10, 10, .bound⟩]
    createdRevision := 1
    updatedRevision := 1
    createdAtMs := 10
    updatedAtMs := 10
    supersededBy := none }]
  capacity := [1, 2, 3, 4, 5].map (usageAt idA)

/-- The five lines once more: each sample takes two of the eight places, and the oldest is lost. -/
theorem oldest_sample_lost : ¬ HistoryKept plainEnv afterFiveLines [fiveLines] 2 20 := by
  intro h
  have hcount := (h.1 (idA, none, .primary, .codexBar)).count
  have hfour : (ofGroup (idA, none, .primary, .codexBar)
      (compose plainEnv afterFiveLines [fiveLines] 2 20).capacity).length = 4 := by
    decide +kernel
  have hfive : ((ofGroup (idA, none, .primary, .codexBar)
      (samplesOf plainEnv afterFiveLines [fiveLines])).map pair).toFinset.card = 5 := by
    decide +kernel
  rw [hfour, hfive] at hcount
  cases hcount

end Enrollment

end Switchback
