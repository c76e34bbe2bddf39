import Mathlib.Algebra.Order.Ring.Int
import Mathlib.Data.List.Basic
import Mathlib.Data.List.Flatten

/-!
# Frames that end with two separators

A sequence is cut, from the left, right after every two adjacent separators.
-/

namespace Lib

namespace Frames

variable {α β : Type*}

/-- Put `a` in front: of the first frame, or of the rest when there is none. -/
def attach (a : α) : List (List α) × List α → List (List α) × List α
  | ([], r) => ([], a :: r)
  | (f :: fs, r) => ((a :: f) :: fs, r)

/-- The frames, each up to its first two adjacent separators, and what is left. -/
def cut (sep : α → Bool) : List α → List (List α) × List α
  | [] => ([], [])
  | [a] => ([], [a])
  | a :: b :: t =>
      if sep a && sep b then ([a, b] :: (cut sep t).1, (cut sep t).2)
      else attach a (cut sep (b :: t))

variable {sep : α → Bool}

theorem attach_of_nil {p : List (List α) × List α} (h : p.1 = []) (a : α) :
    attach a p = ([], a :: p.2) := by
  obtain ⟨fs, r⟩ := p
  subst h
  rfl

theorem attach_append {p : List (List α) × List α} (h : p.1 ≠ []) (a : α)
    (q : List (List α) × List α) :
    attach a (p.1 ++ q.1, q.2) = ((attach a p).1 ++ q.1, q.2) ∧ (attach a p).2 = p.2 := by
  obtain ⟨fs, r⟩ := p
  cases fs with
  | nil => exact absurd rfl h
  | cons f fs => exact ⟨rfl, rfl⟩

theorem attach_flatten (a : α) (p : List (List α) × List α) :
    (attach a p).1.flatten ++ (attach a p).2 = a :: (p.1.flatten ++ p.2) := by
  obtain ⟨fs, r⟩ := p
  cases fs <;> rfl

theorem cut_flatten (sep : α → Bool) (l : List α) : (cut sep l).1.flatten ++ (cut sep l).2 = l := by
  fun_induction cut sep l with
  | case1 => rfl
  | case2 a => rfl
  | case3 a b t h ih => simp [ih]
  | case4 a b t h ih => rw [attach_flatten, ih]

theorem rest_of_nil {l : List α} (h : (cut sep l).1 = []) : (cut sep l).2 = l := by
  have := cut_flatten sep l
  rwa [h] at this

/-- **Cutting may stop anywhere**: the rest carries over to what follows. -/
theorem cut_append (sep : α → Bool) (x y : List α) :
    cut sep (x ++ y) =
      ((cut sep x).1 ++ (cut sep ((cut sep x).2 ++ y)).1, (cut sep ((cut sep x).2 ++ y)).2) := by
  fun_induction cut sep x with
  | case1 => rfl
  | case2 a => rfl
  | case3 a b t h ih =>
    rw [List.cons_append, List.cons_append, cut, if_pos h, ih]
    rfl
  | case4 a b t h ih =>
    by_cases hnil : (cut sep (b :: t)).1 = []
    · rw [attach_of_nil hnil, rest_of_nil hnil]
      rfl
    · obtain ⟨hfst, hsnd⟩ := attach_append hnil a (cut sep ((cut sep (b :: t)).2 ++ y))
      rw [List.cons_append, List.cons_append, cut, if_neg h, ← List.cons_append, ih, hfst, hsnd]

theorem cut_rest (sep : α → Bool) (l : List α) : cut sep (cut sep l).2 = ([], (cut sep l).2) := by
  fun_induction cut sep l with
  | case1 => rfl
  | case2 a => rfl
  | case3 a b t h ih => exact ih
  | case4 a b t h ih =>
    by_cases hnil : (cut sep (b :: t)).1 = []
    · rw [attach_of_nil hnil, rest_of_nil hnil, cut, if_neg h, attach_of_nil hnil,
        rest_of_nil hnil]
    · rw [(attach_append hnil a ([], [])).2, ih]

theorem cut_frame {l f : List α} (hf : f ∈ (cut sep l).1) : cut sep f = ([f], []) := by
  fun_induction cut sep l generalizing f with
  | case1 => simp at hf
  | case2 a => simp at hf
  | case3 a b t h ih =>
    rcases List.mem_cons.mp hf with rfl | hf
    · rw [cut, if_pos h]
      rfl
    · exact ih hf
  | case4 a b t h ih =>
    cases hp : cut sep (b :: t) with
    | mk fs r =>
      rw [hp] at hf ih
      cases fs with
      | nil => simp [attach] at hf
      | cons g fs =>
        rcases List.mem_cons.mp hf with rfl | hf
        · have hg := ih List.mem_cons_self
          -- the first frame begins with `b`, so `a` opens no separator pair with it
          obtain ⟨g', rfl⟩ : ∃ g', g = b :: g' := by
            have hflat := cut_flatten sep (b :: t)
            rw [hp] at hflat
            cases g with
            | nil => simp [cut] at hg
            | cons c g' =>
              have hcb : c = b := (List.cons.inj hflat).1
              exact ⟨g', by rw [hcb]⟩
          rw [cut, if_neg h, hg]
          rfl
        · exact ih (List.mem_cons_of_mem g hf)

theorem attach_map (f : α → β) (a : α) (p : List (List α) × List α) :
    attach (f a) (p.1.map (List.map f), p.2.map f) =
      ((attach a p).1.map (List.map f), (attach a p).2.map f) := by
  obtain ⟨fs, r⟩ := p
  cases fs <;> rfl

theorem cut_map (f : α → β) (sep : β → Bool) (l : List α) :
    cut sep (l.map f) =
      ((cut (sep ∘ f) l).1.map (List.map f), (cut (sep ∘ f) l).2.map f) := by
  fun_induction cut (sep ∘ f) l with
  | case1 => rfl
  | case2 a => rfl
  | case3 a b t h ih =>
    rw [Function.comp_apply, Function.comp_apply] at h
    rw [List.map_cons, List.map_cons, cut, if_pos h, ih]
    rfl
  | case4 a b t h ih =>
    rw [Function.comp_apply, Function.comp_apply] at h
    rw [List.map_cons, List.map_cons, cut, if_neg h, ← List.map_cons, ih, attach_map]

end Frames

end Lib
