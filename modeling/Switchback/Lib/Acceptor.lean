import Switchback.Lib.Machine

/-!
# Acceptors

A grammar is a partial step function on its phases: a word is the beginning of a sentence when the
steps over its letters do not get stuck.
-/

namespace Lib

namespace Acceptor

variable {φ α σ ι : Type*} (next : φ → α → Option φ)

/-- The phase after a word, unless the grammar gets stuck on it. -/
def read (p : φ) (word : List α) : Option φ := word.foldlM next p

@[simp] theorem read_nil (p : φ) : read next p [] = some p := rfl

theorem read_cons (p : φ) (a : α) (word : List α) :
    read next p (a :: word) = (next p a).bind fun p' => read next p' word := List.foldlM_cons

theorem read_singleton (p : φ) (a : α) : read next p [a] = next p a := by
  rw [read_cons]
  simp only [read_nil, Option.bind_fun_some]

theorem read_append (p : φ) (u v : List α) :
    read next p (u ++ v) = (read next p u).bind fun p' => read next p' v := List.foldlM_append

theorem read_append_of_some {p p' : φ} {u : List α} (h : read next p u = some p') (v : List α) :
    read next p (u ++ v) = read next p' v := by
  rw [read_append, h, Option.bind_some]

theorem read_append_of_none {p : φ} {u : List α} (h : read next p u = none) (v : List α) :
    read next p (u ++ v) = none := by
  rw [read_append, h, Option.bind_none]

variable {next}

/-- **The invariant rule for words.**  What the letters of a word keep holds at its end. -/
theorem read_inv {Bad : φ → Prop} {C : α → Prop}
    (hstep : ∀ p a p', Bad p → C a → next p a = some p' → Bad p') {p p' : φ} (h : Bad p)
    {word : List α} (hC : ∀ a ∈ word, C a) (hread : read next p word = some p') : Bad p' := by
  induction word generalizing p with
  | nil =>
    cases hread
    exact h
  | cons a word ih =>
    obtain ⟨ha, hrest⟩ := List.forall_mem_cons.mp hC
    rw [read_cons] at hread
    obtain ⟨q, hq, hread⟩ := Option.bind_eq_some_iff.mp hread
    exact ih (hstep p a q h ha hq) hrest hread

/-- **The exact-condition rule for outputs.**  Where the grammar accepts what a step gives out
exactly under `Ok`, and stands at the place of the new state after it, it accepts the output of a
run exactly when every step of the run meets `Ok`. -/
theorem isSome_read_run_iff {step : σ → ι → σ × List α} {place : σ → φ} {J : σ → Prop}
    {Ok : σ → ι → Prop}
    (hok : ∀ s i, J s → Ok s i → J (step s i).1 ∧
      read next (place s) (step s i).2 = some (place (step s i).1))
    (hbad : ∀ s i, J s → ¬ Ok s i → read next (place s) (step s i).2 = none) {s : σ} (h : J s)
    (inputs : List ι) :
    (read next (place s) (Machine.run step s inputs).2).isSome ↔
      ∀ v ∈ Machine.visited (fun s i => (step s i).1) s inputs, Ok v.1 v.2 := by
  induction inputs generalizing s with
  | nil => simp [Machine.run, Machine.visited]
  | cons i inputs ih =>
    rw [Machine.run, Machine.visited, List.forall_mem_cons]
    by_cases hi : Ok s i
    · obtain ⟨hnext, hread⟩ := hok s i h hi
      rw [read_append_of_some next hread, ih hnext]
      exact (and_iff_right hi).symm
    · rw [read_append_of_none next (hbad s i h hi)]
      refine iff_of_false (fun hsome => ?_) fun hall => hi hall.1
      cases hsome

end Acceptor

end Lib
