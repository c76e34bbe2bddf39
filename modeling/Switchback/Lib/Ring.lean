import Mathlib.Algebra.Order.Ring.Int
import Mathlib.Data.List.Basic
import Mathlib.Data.List.Count

/-!
# Bounded rings

A ring keeps the newest entries of its history.  One history is compared with the same history
less the entries outside a predicate `p`; the comparison looks at the entries in `q` only, and
`q` implies `p`.
-/

namespace Lib

namespace Ring

variable {α : Type*}

/-- Pop from the front until there is room for one more, then append. -/
def push (cap : ℕ) (ring : List α) (a : α) : List α :=
  ring.drop (ring.length + 1 - max cap 1) ++ [a]

/-- The entries that a push pops. -/
def evicted (cap : ℕ) (ring : List α) : List α :=
  ring.take (ring.length + 1 - max cap 1)

theorem evicted_append_push (cap : ℕ) (ring : List α) (a : α) :
    evicted cap ring ++ push cap ring a = ring ++ [a] := by
  rw [evicted, push, ← List.append_assoc, List.take_append_drop]

theorem filter_push_of_evicted {q : α → Bool} {cap : ℕ} {ring : List α} (a : α)
    (h : ∀ x ∈ evicted cap ring, q x = false) :
    (push cap ring a).filter q = ring.filter q ++ [a].filter q := by
  have hnil : (evicted cap ring).filter q = [] := by
    rw [List.filter_eq_nil_iff]
    intro x hx
    simp [h x hx]
  rw [← List.filter_append, ← evicted_append_push cap ring a, List.filter_append, hnil,
    List.nil_append]

/-- The ring holds, oldest first, the newest entries of a history given newest first, and at
least `cap` of them if there are as many. -/
def Keeps (cap : ℕ) (history ring : List α) : Prop :=
  ∃ n, max cap 1 ≤ n ∧ ring = (history.take n).reverse

theorem keeps_reverse (cap : ℕ) (ring : List α) : Keeps cap ring.reverse ring := by
  refine ⟨max (max cap 1) ring.length, Nat.le_max_left _ _, ?_⟩
  have hlen : ring.reverse.length ≤ max (max cap 1) ring.length := by
    rw [List.length_reverse]
    exact Nat.le_max_right _ _
  rw [List.take_of_length_le hlen, List.reverse_reverse]

theorem Keeps.push_eq {cap : ℕ} {history ring : List α} (h : Keeps cap history ring) (a : α) :
    push cap ring a = ((a :: history).take (max cap 1)).reverse := by
  obtain ⟨n, hn, rfl⟩ := h
  obtain ⟨m, hm⟩ : ∃ m, max cap 1 = m + 1 := ⟨max cap 1 - 1, by omega⟩
  rw [hm] at hn
  rw [push, hm, List.take_succ_cons, List.reverse_cons]
  congr 1
  rw [List.length_reverse, List.length_take, List.drop_reverse, List.length_take,
    List.take_take, List.reverse_inj, List.take_eq_take_iff]
  omega

theorem Keeps.push {cap : ℕ} {history ring : List α} (h : Keeps cap history ring) (a : α) :
    Keeps cap (a :: history) (push cap ring a) :=
  ⟨max cap 1, Nat.le_refl _, h.push_eq a⟩

theorem countP_take_mono (q : α → Bool) (l : List α) {m n : ℕ} (h : m ≤ n) :
    (l.take m).countP q ≤ (l.take n).countP q :=
  (List.take_sublist_take_left h).countP_le

theorem countP_take_le_filter {p q : α → Bool} (hq : ∀ a, q a = true → p a = true)
    (l base : List α) (m : ℕ) :
    ((l ++ base).take m).countP q ≤ ((l.filter p ++ base).take m).countP q := by
  induction l generalizing m with
  | nil => exact Nat.le_refl _
  | cons a l ih =>
    cases m with
    | zero => simp
    | succ m =>
      rw [List.cons_append, List.take_succ_cons]
      by_cases ha : p a = true
      · rw [List.filter_cons_of_pos ha, List.cons_append, List.take_succ_cons,
          List.countP_cons, List.countP_cons]
        exact Nat.add_le_add_right (ih m) _
      · have hqa : ¬ q a = true := fun h => ha (hq a h)
        rw [List.filter_cons_of_neg ha, List.countP_cons_of_neg hqa]
        exact Nat.le_trans (ih m) (countP_take_mono q _ (Nat.le_succ m))

/-- If the newest entries are all in `p`, leaving out the others changes nothing among them. -/
theorem take_filter_append {p : α → Bool} {l : List α} {m : ℕ}
    (h : ∀ a ∈ l.take m, p a = true) (base : List α) :
    (l.filter p ++ base).take m = (l ++ base).take m := by
  induction l generalizing m with
  | nil => rfl
  | cons a l ih =>
    cases m with
    | zero => simp
    | succ m =>
      rw [List.take_succ_cons] at h
      rw [List.filter_cons_of_pos (h a List.mem_cons_self), List.cons_append, List.cons_append,
        List.take_succ_cons, List.take_succ_cons,
        ih fun x hx => h x (List.mem_cons_of_mem a hx)]

/-- **One push keeps the agreement.**  The first ring has seen everything, the second only the
entries in `p`; if the first loses an entry in `q`, its newest entries are all in `p`. -/
theorem filter_push_eq {p q : α → Bool} (hq : ∀ a, q a = true → p a = true) {cap : ℕ}
    {l base ring ring' : List α} (hk : Keeps cap (l ++ base) ring)
    (hk' : Keeps cap (l.filter p ++ base) ring') (heq : ring.filter q = ring'.filter q) {a : α}
    (ha : p a = true)
    (hev : (∃ x ∈ evicted cap ring, q x = true) →
      ∀ x ∈ (a :: l).take (max cap 1), p x = true) :
    (push cap ring a).filter q = (push cap ring' a).filter q := by
  have hcons : a :: (l.filter p ++ base) = (a :: l).filter p ++ base := by
    rw [List.filter_cons_of_pos ha, List.cons_append]
  by_cases hlost : ∃ x ∈ evicted cap ring, q x = true
  · -- both rings are the same newest entries
    rw [hk.push_eq, hk'.push_eq, hcons, take_filter_append (hev hlost), List.cons_append]
  · -- the second ring loses nothing in `q` either, for lack of room to do so
    have hnone : ∀ x ∈ evicted cap ring, q x = false := by
      intro x hx
      rw [← Bool.not_eq_true]
      exact fun h => hlost ⟨x, hx, h⟩
    have hsub : ((push cap ring' a).filter q).Sublist ((push cap ring a).filter q) := by
      rw [filter_push_of_evicted a hnone, heq, ← List.filter_append,
        ← evicted_append_push cap ring' a]
      exact (List.sublist_append_right _ _).filter q
    refine (hsub.eq_of_length_le ?_).symm
    rw [← List.countP_eq_length_filter, ← List.countP_eq_length_filter, hk.push_eq, hk'.push_eq,
      List.countP_reverse, List.countP_reverse, hcons, ← List.cons_append]
    exact countP_take_le_filter hq (a :: l) base _

end Ring

end Lib
