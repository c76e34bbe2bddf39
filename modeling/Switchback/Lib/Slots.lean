import Mathlib.Algebra.Order.Ring.Int
import Mathlib.Data.List.Basic
import Mathlib.Data.List.Nodup

/-!
# Slots that grow

A list of slots, each with a weight; an entry goes to one of them.  Two lists of slots are
compared by the weights of their initial segments: the one whose entries go to later slots, or
are dropped, falls behind and stays behind.
-/

namespace Lib

namespace Slots

variable {α κ : Type*}

/-- The weight of the first `j` slots. -/
def prefixWeight (w : α → ℕ) (l : List α) (j : ℕ) : ℕ := ((l.take j).map w).sum

/-- No initial segment of `l` is heavier. -/
def Below (w : α → ℕ) (l l' : List α) : Prop := ∀ j, prefixWeight w l j ≤ prefixWeight w l' j

/-- Some initial segment of `l` is lighter. -/
def Behind (w : α → ℕ) (l l' : List α) : Prop := ∃ j, prefixWeight w l j < prefixWeight w l' j

variable {w : α → ℕ}

theorem Below.refl (l : List α) : Below w l l := fun _ => Nat.le_refl _

theorem Behind.ne {l l' : List α} (h : Behind w l l') : l ≠ l' := by
  rintro rfl
  obtain ⟨j, hj⟩ := h
  exact absurd hj (Nat.lt_irrefl _)

theorem prefixWeight_modify {f : α → α} {n : ℕ} (hf : ∀ a, w (f a) = w a + n) (l : List α)
    (p j : ℕ) :
    prefixWeight w (l.modify p f) j =
      prefixWeight w l j + if p < j ∧ p < l.length then n else 0 := by
  unfold prefixWeight
  induction l generalizing p j with
  | nil => simp
  | cons a l ih =>
    cases j with
    | zero => simp
    | succ j =>
      cases p with
      | zero => simp [List.modify, hf]; omega
      | succ p =>
        have h := ih p j
        simp only [List.modify_succ_cons, List.take_succ_cons, List.map_cons, List.sum_cons,
          List.length_cons, Nat.add_lt_add_iff_right] at h ⊢
        omega

theorem prefixWeight_concat {a : α} (ha : w a = 0) (l : List α) (j : ℕ) :
    prefixWeight w (l ++ [a]) j = prefixWeight w l j := by
  unfold prefixWeight
  rw [List.take_append, List.map_append, List.sum_append]
  have hz : ((([a] : List α).take (j - l.length)).map w).sum = 0 := by
    cases j - l.length with
    | zero => rfl
    | succ n => simp [ha]
  omega

theorem map_modify {β : Type*} {g : α → β} {f : α → α} {f' : β → β} (h : ∀ a, g (f a) = f' (g a))
    (l : List α) (p : ℕ) : (l.modify p f).map g = (l.map g).modify p f' := by
  induction l generalizing p with
  | nil => simp
  | cons a l ih =>
    cases p with
    | zero => simp [h]
    | succ p => simp [ih]

theorem modify_last (f : α → α) (l : List α) (a : α) :
    (l ++ [a]).modify l.length f = l ++ [f a] := by
  induction l with
  | nil => rfl
  | cons b l ih => simp [ih]

theorem map_ite_eq_modify {β : Type*} [DecidableEq κ] {keys : List κ} (hnd : keys.Nodup)
    (g : κ → β) (h : β → β) (k : κ) :
    (keys.map fun x => if x = k then h (g x) else g x) =
      (keys.map g).modify (keys.idxOf k) h := by
  induction keys with
  | nil => rfl
  | cons x keys ih =>
    obtain ⟨hx, hnd⟩ := List.nodup_cons.mp hnd
    rw [List.map_cons, List.map_cons]
    by_cases hk : x = k
    · subst hk
      rw [if_pos rfl, List.idxOf_cons_self]
      have hrest : (keys.map fun y => if y = x then h (g y) else g y) = keys.map g := by
        refine List.map_congr_left fun y hy => ?_
        have hyx : y ≠ x := fun h => hx (h ▸ hy)
        rw [if_neg hyx]
      rw [hrest]
      rfl
    · rw [if_neg hk, List.idxOf_cons_ne _ hk, ih hnd]
      rfl

theorem idxOf_eq_last_iff [DecidableEq κ] {keys : List κ} (hnd : keys.Nodup) {k : κ}
    (hk : k ∈ keys) : keys.idxOf k = keys.length - 1 ↔ keys.getLast? = some k := by
  obtain ⟨init, last, rfl⟩ : ∃ init last, keys = init ++ [last] := by
    rcases List.eq_nil_or_concat keys with rfl | ⟨init, last, h⟩
    · simp at hk
    · exact ⟨init, last, by rw [h, List.concat_eq_append]⟩
  rw [List.getLast?_concat, List.length_append, List.length_singleton, Nat.add_sub_cancel,
    Option.some_inj]
  have hlast : last ∉ init := by
    have := List.nodup_append.mp hnd
    exact fun h => this.2.2 last h last (List.mem_singleton.mpr rfl) rfl
  constructor
  · intro hidx
    by_contra hne
    have hmem : k ∈ init := by
      rcases List.mem_append.mp hk with h | h
      · exact h
      · exact absurd (List.mem_singleton.mp h).symm hne
    rw [List.idxOf_append_of_mem hmem] at hidx
    exact absurd (List.idxOf_lt_length_of_mem hmem) (by omega)
  · rintro rfl
    rw [List.idxOf_append_of_notMem hlast, List.idxOf_cons_self, Nat.add_zero]

end Slots

end Lib
