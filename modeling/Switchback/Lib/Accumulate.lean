import Mathlib.Algebra.BigOperators.Group.List.Basic
import Mathlib.Algebra.Order.Ring.Int

/-!
# Mapping a list with an accumulator

The members of a list are mapped in order, and a state is passed from one to the next.
-/

namespace Lib

section Accumulate

variable {α β σ : Type*} (f : α → σ → β × σ)

/-- Map the members in order, passing a state from one to the next. -/
def mapAccum : List α → σ → List β × σ
  | [], s => ([], s)
  | a :: l, s =>
      let image := f a s
      let rest := mapAccum l image.2
      (image.1 :: rest.1, rest.2)

@[simp] theorem mapAccum_cons (a : α) (l : List α) (s : σ) :
    mapAccum f (a :: l) s =
      ((f a s).1 :: (mapAccum f l (f a s).2).1, (mapAccum f l (f a s).2).2) := rfl

variable {f}

theorem mapAccum_fst {g : α → β} (hg : ∀ a s, (f a s).1 = g a) (l : List α) (s : σ) :
    (mapAccum f l s).1 = l.map g := by
  induction l generalizing s with
  | nil => rfl
  | cons a l ih => rw [mapAccum_cons, hg, ih, List.map_cons]

variable {M : Type*} [AddCommMonoid M]

theorem mapAccum_balance {Inv : σ → Prop} {total : σ → M} {weight : α → M} {weight' : β → M}
    (hinv : ∀ a s, Inv s → Inv (f a s).2)
    (hbal : ∀ a s, Inv s → total (f a s).2 + weight' (f a s).1 = total s + weight a)
    (l : List α) {s : σ} (hs : Inv s) :
    Inv (mapAccum f l s).2 ∧
      total (mapAccum f l s).2 + ((mapAccum f l s).1.map weight').sum =
        total s + (l.map weight).sum := by
  induction l generalizing s with
  | nil => exact ⟨hs, rfl⟩
  | cons a l ih =>
    obtain ⟨hinv', hrest⟩ := ih (hinv a s hs)
    refine ⟨hinv', ?_⟩
    rw [mapAccum_cons, List.map_cons, List.sum_cons, List.map_cons, List.sum_cons]
    calc
      _ = (total (mapAccum f l (f a s).2).2 +
            ((mapAccum f l (f a s).2).1.map weight').sum) + weight' (f a s).1 := by
        rw [add_left_comm, add_comm]
      _ = (total (f a s).2 + weight' (f a s).1) + (l.map weight).sum := by
        rw [hrest, add_right_comm]
      _ = total s + (weight a + (l.map weight).sum) := by rw [hbal a s hs, add_assoc]

end Accumulate

end Lib
