import Mathlib.Algebra.Order.Ring.Int
import Mathlib.Data.List.Basic

/-!
# Provenance

Places hold values.  A move copies values from place to place, or issues a new one.  Which places
hold the value issued last is followed without a look at the values.
-/

namespace Lib

namespace Provenance

variable {π α : Type*} [DecidableEq π]

/-- `copy source` gives each place what its source has, and empties a place without a source. -/
inductive Move (π α : Type*) where
  | copy (source : π → Option π)
  | issue (a : α) (place : Option π)

namespace Move

def values (v : π → Option α) : Move π α → π → Option α
  | copy source, p => (source p).bind v
  | issue a place, p => if place = some p then some a else v p

def issued (l : List α) : Move π α → List α
  | copy _ => l
  | issue a _ => a :: l

/-- The places that hold the value issued last. -/
def holds (h : π → Bool) : Move π α → π → Bool
  | copy source, p => (source p).any h
  | issue _ place, p => place = some p

end Move

variable {v : π → Option α} {l : List α} {h : π → Bool} {m : Move π α}

/-- What is issued is listed last first. -/
structure Tracked (v : π → Option α) (l : List α) (h : π → Bool) : Prop where
  newest : ∀ p, h p = true → v p = l.head?

theorem Tracked.move (ht : Tracked v l h) (m : Move π α) :
    Tracked (m.values v) (m.issued l) (m.holds h) := by
  constructor
  intro p hp
  cases m with
  | copy source =>
    obtain ⟨q, hq, hholds⟩ := (Option.any_eq_true h (source p)).1 hp
    show (source p).bind v = l.head?
    rw [hq]
    exact ht.newest q hholds
  | issue a place =>
    have hplace : place = some p := of_decide_eq_true hp
    show (if place = some p then some a else v p) = some a
    rw [if_pos hplace]

/-- Every value was issued, and a place with the last one is followed. -/
structure Exact (v : π → Option α) (l : List α) (h : π → Bool) : Prop where
  ne_nil : l ≠ []
  known : ∀ p a, v p = some a → a ∈ l
  held : ∀ p, v p = l.head? → h p = true

theorem Exact.move (he : Exact v l h)
    (hfresh : ∀ a place, m = .issue a place → a ∉ l) :
    Exact (m.values v) (m.issued l) (m.holds h) := by
  cases m with
  | copy source =>
    refine ⟨he.ne_nil, fun p a hp => ?_, fun p hp => ?_⟩
    · obtain ⟨q, -, hq⟩ := Option.bind_eq_some_iff.1 hp
      exact he.known q a hq
    · obtain ⟨a, ha⟩ := Option.isSome_iff_exists.1 (List.isSome_head?.2 he.ne_nil)
      obtain ⟨q, hsource, hq⟩ := Option.bind_eq_some_iff.1 (Eq.trans hp ha)
      show (source p).any h = true
      rw [hsource]
      exact he.held q (hq.trans ha.symm)
  | issue a place =>
    refine ⟨List.cons_ne_nil a l, fun p b hp => ?_, fun p hp => ?_⟩
    · by_cases hplace : place = some p
      · rw [Move.values, if_pos hplace] at hp
        exact Option.some.inj hp ▸ List.mem_cons_self
      · rw [Move.values, if_neg hplace] at hp
        exact List.mem_cons_of_mem a (he.known p b hp)
    · by_cases hplace : place = some p
      · exact decide_eq_true hplace
      · rw [Move.values, if_neg hplace] at hp
        exact absurd (he.known p a hp) (hfresh a place rfl)

end Provenance

end Lib
