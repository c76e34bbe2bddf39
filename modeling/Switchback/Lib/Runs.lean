import Mathlib.Data.List.Sort
import Mathlib.Algebra.Order.Ring.Int

/-!
# Runs of a sorted list

A list sorted by a key is cut into runs of equal keys, and each run is rearranged on its own.
-/

namespace Lib

namespace Runs

variable {α κ : Type*} [LinearOrder κ] {key : α → κ} {l r : List α} {k : κ}

/-- The stable sort by a key. -/
def sortOn (key : α → κ) (l : List α) : List α := l.insertionSort fun a b => key a ≤ key b

theorem sortOn_perm (key : α → κ) (l : List α) : (sortOn key l).Perm l :=
  List.perm_insertionSort _ l

/-- A sort by a relation that compares keys. -/
theorem insertionSort_eq_sortOn {rel : α → α → Prop} [DecidableRel rel]
    (h : ∀ a ∈ l, ∀ b ∈ l, rel a b ↔ key a ≤ key b) : l.insertionSort rel = sortOn key l := by
  have hmap := @List.map_insertionSort α α rel (fun a b => key a ≤ key b) _ _ id l h
  rwa [List.map_id, List.map_id] at hmap

theorem sortOn_sorted (key : α → κ) (l : List α) :
    (sortOn key l).Pairwise fun a b => key a ≤ key b := by
  have htotal : Std.Total fun a b : α => key a ≤ key b := ⟨fun a b => le_total (key a) (key b)⟩
  have htrans : IsTrans α fun a b => key a ≤ key b := ⟨fun _ _ _ => le_trans⟩
  exact List.pairwise_insertionSort _ l

theorem sortOn_of_sorted (h : l.Pairwise fun a b => key a ≤ key b) : sortOn key l = l :=
  h.insertionSort_eq

/-- A sort on a key keeps the order within each key. -/
theorem filter_sortOn (key : α → κ) (l : List α) (k : κ) :
    (sortOn key l).filter (fun a => key a = k) = l.filter fun a => key a = k := by
  have htotal : Std.Total fun a b : α => key a ≤ key b := ⟨fun a b => le_total (key a) (key b)⟩
  have htrans : IsTrans α fun a b => key a ≤ key b := ⟨fun _ _ _ => le_trans⟩
  have hsame : (l.filter fun a => key a = k).Pairwise fun a b => key a ≤ key b := by
    refine List.Pairwise.imp_of_mem ?_ (List.pairwise_of_forall fun _ _ => trivial)
    intro a b ha hb _
    have hka : key a = k := by simpa using (List.mem_filter.1 ha).2
    have hkb : key b = k := by simpa using (List.mem_filter.1 hb).2
    exact (hka.trans hkb.symm).le
  have hsub : (l.filter fun a => key a = k).Sublist (sortOn key l) :=
    List.sublist_insertionSort hsame List.filter_sublist
  have hfilter := hsub.filter fun a => key a = k
  rw [List.filter_filter] at hfilter
  simp only [Bool.and_self] at hfilter
  exact (hfilter.eq_of_length ((sortOn_perm key l).filter _).length_eq.symm).symm

theorem sortOn_stable {rel : α → α → Prop} (h : l.Pairwise rel) :
    (sortOn key l).Pairwise fun a b => key a < key b ∨ key a = key b ∧ rel a b := by
  have hsorted := sortOn_sorted key l
  rw [List.pairwise_iff_forall_sublist] at h hsorted ⊢
  intro a b hsub
  rcases (hsorted hsub).lt_or_eq with hlt | heq
  · exact Or.inl hlt
  · refine Or.inr ⟨heq, h ?_⟩
    have hpair : [a, b].Sublist ((sortOn key l).filter fun c => key c = key b) := by
      have hkeep := hsub.filter fun c => key c = key b
      rwa [List.filter_eq_self.2 (by simp [heq])] at hkeep
    rw [filter_sortOn] at hpair
    exact hpair.trans List.filter_sublist

theorem map_sortOn {β : Type*} (f : β → α) (l : List β) :
    (sortOn (fun b => key (f b)) l).map f = sortOn key (l.map f) :=
  List.map_insertionSort _ _ _ _ fun _ _ _ _ => Iff.rfl

theorem countP_of_sorted {rel : α → α → Prop} [DecidableRel rel] (hasymm : ∀ a b, rel a b → ¬rel b a)
    (h : l.Pairwise rel) {i : ℕ} {a : α} (hi : l[i]? = some a) :
    l.countP (fun b => rel b a) = i := by
  induction l generalizing i with
  | nil => cases hi
  | cons b l ih =>
    obtain ⟨hhead, htail⟩ := List.pairwise_cons.1 h
    cases i with
    | zero =>
      obtain rfl : b = a := Option.some.inj hi
      rw [List.countP_eq_zero]
      intro c hc
      rcases List.mem_cons.1 hc with rfl | hc
      · simpa using fun hself => hasymm c c hself hself
      · simpa using hasymm b c (hhead c hc)
    | succ i =>
      have hin : a ∈ l := List.mem_of_getElem? hi
      rw [List.countP_cons_of_pos (by simpa using hhead a hin), ih htail hi]

theorem takeWhile_eq_filter {p : α → Bool} (hp : ∀ a ∈ l, p a = decide (key a = k))
    (hl : l.Pairwise fun a b => key a ≤ key b) (hk : ∀ a ∈ l, k ≤ key a) :
    l.takeWhile p = l.filter fun a => key a = k := by
  induction l with
  | nil => rfl
  | cons a l ih =>
    obtain ⟨hhead, htail⟩ := List.pairwise_cons.1 hl
    obtain ⟨hpa, hpl⟩ := List.forall_mem_cons.1 hp
    by_cases ha : key a = k
    · rw [List.takeWhile_cons_of_pos (by simpa [hpa] using ha),
        List.filter_cons_of_pos (by simpa using ha)]
      rw [ih hpl htail fun b hb => ha ▸ hhead b hb]
    · rw [List.takeWhile_cons_of_neg (by simpa [hpa] using ha),
        List.filter_cons_of_neg (by simpa using ha)]
      symm
      rw [List.filter_eq_nil_iff]
      intro b hb
      have hlt : k < key a := lt_of_le_of_ne (hk a List.mem_cons_self) (Ne.symm ha)
      simpa using (hlt.trans_le (hhead b hb)).ne'

theorem dropWhile_eq_filter {p : α → Bool} (hp : ∀ a ∈ l, p a = decide (key a = k))
    (hl : l.Pairwise fun a b => key a ≤ key b) (hk : ∀ a ∈ l, k ≤ key a) :
    l.dropWhile p = l.filter fun a => key a ≠ k := by
  induction l with
  | nil => rfl
  | cons a l ih =>
    obtain ⟨hhead, htail⟩ := List.pairwise_cons.1 hl
    obtain ⟨hpa, hpl⟩ := List.forall_mem_cons.1 hp
    by_cases ha : key a = k
    · rw [List.dropWhile_cons_of_pos (by simpa [hpa] using ha),
        List.filter_cons_of_neg (by simpa using ha)]
      exact ih hpl htail fun b hb => ha ▸ hhead b hb
    · rw [List.dropWhile_cons_of_neg (by simpa [hpa] using ha),
        List.filter_cons_of_pos (by simpa using ha)]
      congr 1
      symm
      rw [List.filter_eq_self]
      intro b hb
      have hlt : k < key a := lt_of_le_of_ne (hk a List.mem_cons_self) (Ne.symm ha)
      simpa using (hlt.trans_le (hhead b hb)).ne'

/-! ### Runs, rearranged -/

/-- Sorted by the key, with each run of `l` rearranged by `g`. -/
structure RunsBy (key : α → κ) (g : List α → List α) (l r : List α) : Prop where
  sorted : r.Pairwise fun a b => key a ≤ key b
  run : ∀ k, (r.filter fun a => key a = k) = g (l.filter fun a => key a = k)

variable {g : List α → List α}

theorem RunsBy.nil (hnil : g [] = []) : RunsBy key g [] [] :=
  ⟨List.Pairwise.nil, fun _ => hnil.symm⟩

/-- Rearranging the first run of a sorted list and then the rest. -/
theorem RunsBy.cons {a : α} (hg : ∀ l, (g l).Perm l)
    (hl : (a :: l).Pairwise fun a b => key a ≤ key b)
    (hrest : RunsBy key g (l.filter fun b => key b ≠ key a) r) :
    RunsBy key g (a :: l) (g (a :: l.filter fun b => key b = key a) ++ r) := by
  have hnil : g [] = [] := List.perm_nil.1 (hg [])
  have hrun {b : α} (hb : b ∈ g (a :: l.filter fun b => key b = key a)) : key b = key a := by
    rcases List.mem_cons.1 ((hg _).mem_iff.1 hb) with rfl | hb
    · rfl
    · simpa using (List.mem_filter.1 hb).2
  have hkeys {b : α} (hb : b ∈ r) : key b ≠ key a ∧ key a ≤ key b := by
    have hmem : b ∈ g ((l.filter fun c => key c ≠ key a).filter fun c => key c = key b) := by
      rw [← hrest.run]
      exact List.mem_filter.2 ⟨hb, by simp⟩
    obtain ⟨hin, -⟩ := List.mem_filter.1 ((hg _).mem_iff.1 hmem)
    obtain ⟨hl', hne⟩ := List.mem_filter.1 hin
    exact ⟨by simpa using hne, (List.pairwise_cons.1 hl).1 b hl'⟩
  constructor
  · rw [List.pairwise_append]
    refine ⟨?_, hrest.sorted, fun b hb c hc => (hrun hb).symm ▸ (hkeys hc).2⟩
    refine List.Pairwise.imp_of_mem ?_ (List.pairwise_of_forall fun _ _ => trivial)
    intro b c hb hc _
    exact ((hrun hb).trans (hrun hc).symm).le
  · intro k
    rw [List.filter_append, hrest.run, List.filter_filter]
    by_cases hk : key a = k
    · have hall : (g (a :: l.filter fun b => key b = key a)).filter (fun b => key b = k) =
          g (a :: l.filter fun b => key b = key a) :=
        List.filter_eq_self.2 fun b hb => by simpa using (hrun hb).trans hk
      have hnone : (l.filter fun b => (key b = k) && (key b ≠ key a)) = [] := by
        rw [List.filter_eq_nil_iff]
        intro b _
        simp [hk]
      rw [hall, hnone, hnil, List.append_nil, List.filter_cons_of_pos (by simpa using hk), hk]
    · have hnone : (g (a :: l.filter fun b => key b = key a)).filter (fun b => key b = k) = [] := by
        rw [List.filter_eq_nil_iff]
        intro b hb
        rw [hrun hb]
        simpa using hk
      have hsame : (l.filter fun b => (key b = k) && (key b ≠ key a)) =
          l.filter fun b => key b = k := by
        refine List.filter_congr fun b _ => ?_
        by_cases hb : key b = k
        · simp [hb, Ne.symm hk]
        · simp [hb]
      rw [hnone, hsame, List.nil_append, List.filter_cons_of_neg (by simpa using hk)]

theorem RunsBy.of_sortOn (h : RunsBy key g (sortOn key l) r) : RunsBy key g l r :=
  ⟨h.sorted, fun k => by rw [h.run, filter_sortOn]⟩

theorem RunsBy.sortOn (key : α → κ) (l : List α) : RunsBy key id l (sortOn key l) :=
  ⟨sortOn_sorted key l, filter_sortOn key l⟩

end Runs

end Lib
