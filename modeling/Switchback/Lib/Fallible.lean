import Mathlib.Data.List.Forall2
import Mathlib.Algebra.Order.Ring.Int

/-!
# Fallible loops

What it means that a sequence of fallible steps succeeds.
-/

namespace Lib

variable {ε α β : Type*}

theorem bind_eq_ok_iff {α β : Type _} {x : Except ε α} {f : α → Except ε β} {b : β} :
    x >>= f = .ok b ↔ ∃ a, x = .ok a ∧ f a = .ok b := by
  cases x with
  | error e => simp [bind, Except.bind]
  | ok a => simp [bind, Except.bind]

theorem map_eq_ok_iff {α β : Type _} {x : Except ε α} {f : α → β} {b : β} :
    x.map f = .ok b ↔ ∃ a, x = .ok a ∧ f a = b := by
  cases x with
  | error e => simp [Except.map]
  | ok a => simp [Except.map]

theorem toOption_eq_some_iff {α : Type _} {x : Except ε α} {a : α} :
    x.toOption = some a ↔ x = .ok a := by
  cases x with
  | error e => simp [Except.toOption]
  | ok b => simp [Except.toOption]

/-- The loop succeeds with the results of its rounds. -/
theorem mapM_eq_ok_iff {f : α → Except ε β} {l : List α} {r : List β} :
    l.mapM f = .ok r ↔ List.Forall₂ (fun a b => f a = .ok b) l r := by
  induction l generalizing r with
  | nil => simp [pure, Except.pure, eq_comm]
  | cons a l ih =>
    rw [List.mapM_cons, bind_eq_ok_iff, List.forall₂_cons_left_iff]
    constructor
    · rintro ⟨b, ha, h⟩
      obtain ⟨rest, hl, h⟩ := bind_eq_ok_iff.mp h
      obtain rfl : b :: rest = r := by simpa [pure, Except.pure] using h
      exact ⟨b, rest, ha, ih.mp hl, rfl⟩
    · rintro ⟨b, rest, ha, hl, rfl⟩
      exact ⟨b, ha, bind_eq_ok_iff.mpr ⟨rest, ih.mpr hl, rfl⟩⟩

/-- The loop succeeds when every round does. -/
theorem exists_mapM_eq_ok_iff {f : α → Except ε β} {l : List α} :
    (∃ r, l.mapM f = .ok r) ↔ ∀ a ∈ l, ∃ b, f a = .ok b := by
  simp only [mapM_eq_ok_iff]
  induction l with
  | nil => simp
  | cons a l ih =>
    rw [List.forall_mem_cons, ← ih]
    constructor
    · rintro ⟨r, h⟩
      obtain ⟨b, rest, ha, hl, rfl⟩ := List.forall₂_cons_left_iff.mp h
      exact ⟨⟨b, ha⟩, rest, hl⟩
    · rintro ⟨⟨b, ha⟩, rest, hl⟩
      exact ⟨b :: rest, .cons ha hl⟩

/-- Every result is the result of a round. -/
theorem exists_of_mem_mapM {f : α → Except ε β} {l : List α} {r : List β} (h : l.mapM f = .ok r)
    {b : β} (hb : b ∈ r) : ∃ a ∈ l, f a = .ok b := by
  have hall := mapM_eq_ok_iff.mp h
  clear h
  induction hall with
  | nil => cases hb
  | cons ha _ ih =>
    rcases List.mem_cons.mp hb with rfl | hb
    · exact ⟨_, List.mem_cons_self, ha⟩
    · obtain ⟨a, hmem, hfa⟩ := ih hb
      exact ⟨a, List.mem_cons_of_mem _ hmem, hfa⟩

theorem flatMap_of_mapM {γ : Type _} {f : α → Except ε β} {g : β → List γ} {k : α → List γ}
    (hround : ∀ a b, f a = .ok b → g b = k a) {l : List α} {r : List β} (h : l.mapM f = .ok r) :
    r.flatMap g = l.flatMap k := by
  have hall := mapM_eq_ok_iff.mp h
  clear h
  induction hall with
  | nil => rfl
  | cons ha _ ih => rw [List.flatMap_cons, List.flatMap_cons, ih, hround _ _ ha]

theorem forM_eq_ok_iff {f : α → Except ε Unit} {l : List α} :
    l.forM f = .ok () ↔ ∀ a ∈ l, f a = .ok () := by
  induction l with
  | nil => simp [pure, Except.pure]
  | cons a l ih =>
    have hcons : (a :: l).forM f = (f a >>= fun _ => l.forM f) := rfl
    rw [hcons, bind_eq_ok_iff, List.forall_mem_cons, ← ih]
    exact ⟨fun ⟨_, ha, hl⟩ => ⟨ha, hl⟩, fun ⟨ha, hl⟩ => ⟨(), ha, hl⟩⟩

theorem mapM_checked_eq_ok_iff {check : α → Except ε Unit} {g : α → β} {l : List α} {r : List β} :
    l.mapM (fun a => (check a).map fun _ => g a) = .ok r ↔
      (∀ a ∈ l, check a = .ok ()) ∧ r = l.map g := by
  rw [mapM_eq_ok_iff]
  induction l generalizing r with
  | nil => simp
  | cons a l ih =>
    rw [List.forall₂_cons_left_iff, List.forall_mem_cons]
    constructor
    · rintro ⟨b, rest, ha, hrest, rfl⟩
      obtain ⟨⟨⟩, hcheck, rfl⟩ := map_eq_ok_iff.1 ha
      obtain ⟨hall, rfl⟩ := ih.1 hrest
      exact ⟨⟨hcheck, hall⟩, rfl⟩
    · rintro ⟨⟨hcheck, hall⟩, rfl⟩
      exact ⟨g a, l.map g, map_eq_ok_iff.2 ⟨(), hcheck, rfl⟩, ih.2 ⟨hall, rfl⟩, rfl⟩

end Lib
