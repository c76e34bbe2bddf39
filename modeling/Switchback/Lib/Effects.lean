import Mathlib.Algebra.Order.Ring.Int
import Mathlib.Data.List.Basic

/-!
# Operations as lists of atomic effects

An operation on durable state is a list of effects.  Each effect happens as a whole or is refused
and changes nothing; the first refusal ends the operation and what has happened stays.  A crash
after `k` effects is the operation cut to its first `k` effects.
-/

namespace Lib

namespace Effects

variable {σ ε : Type*}

/-- Run effects in order until one is refused. -/
def perform (s : σ) : List (σ → Except ε σ) → σ × Option ε
  | [] => (s, none)
  | f :: fs =>
    match f s with
    | .error e => (s, some e)
    | .ok s' => perform s' fs

/-- What a crash after `k` effects leaves. -/
def crashed (k : ℕ) (fs : List (σ → Except ε σ)) (s : σ) : σ := (perform s (fs.take k)).1

@[simp] theorem perform_nil (s : σ) : perform s ([] : List (σ → Except ε σ)) = (s, none) := rfl

theorem perform_cons_ok {s s' : σ} {f : σ → Except ε σ} (h : f s = .ok s')
    (fs : List (σ → Except ε σ)) : perform s (f :: fs) = perform s' fs := by
  simp only [perform, h]

theorem perform_cons_error {s : σ} {e : ε} {f : σ → Except ε σ} (h : f s = .error e)
    (fs : List (σ → Except ε σ)) : perform s (f :: fs) = (s, some e) := by
  simp only [perform, h]

theorem perform_cons_none {s t : σ} {f : σ → Except ε σ} {fs : List (σ → Except ε σ)} :
    perform s (f :: fs) = (t, none) ↔ ∃ s', f s = .ok s' ∧ perform s' fs = (t, none) := by
  cases h : f s with
  | error e => simp [perform_cons_error h]
  | ok s' => simp [perform_cons_ok h]

/-- **The effect rule.**  What every effect keeps is kept by the operation, whether it ends or is
refused on the way. -/
theorem perform_inv {I : σ → Prop} {fs : List (σ → Except ε σ)}
    (hkeep : ∀ f ∈ fs, ∀ s s', I s → f s = .ok s' → I s') {s : σ} (hs : I s) :
    I (perform s fs).1 := by
  induction fs generalizing s with
  | nil => exact hs
  | cons f fs ih =>
    cases hf : f s with
    | error e => rwa [perform_cons_error hf]
    | ok s' =>
      rw [perform_cons_ok hf]
      exact ih (fun g hg => hkeep g (List.mem_cons_of_mem _ hg))
        (hkeep f List.mem_cons_self s s' hs hf)

/-! ### Loops of operations -/

variable {α : Type*}

/-- Run an operation for each item in turn, until one ends in a refusal. -/
def sweep (f : α → σ → σ × Option ε) : List α → σ → σ × Option ε
  | [], s => (s, none)
  | a :: as, s =>
    match f a s with
    | (s', none) => sweep f as s'
    | (s', some e) => (s', some e)

theorem sweep_cons_none {f : α → σ → σ × Option ε} {a : α} {as : List α} {s s' : σ}
    (h : f a s = (s', none)) : sweep f (a :: as) s = sweep f as s' := by
  simp only [sweep, h]

theorem sweep_cons_some {f : α → σ → σ × Option ε} {a : α} {as : List α} {s s' : σ} {e : ε}
    (h : f a s = (s', some e)) : sweep f (a :: as) s = (s', some e) := by
  simp only [sweep, h]

/-- **The sweep rule.**  What every round keeps is kept by the loop. -/
theorem sweep_inv {I : σ → Prop} {f : α → σ → σ × Option ε} {as : List α}
    (hkeep : ∀ a ∈ as, ∀ s, I s → I (f a s).1) {s : σ} (hs : I s) : I (sweep f as s).1 := by
  induction as generalizing s with
  | nil => exact hs
  | cons a as ih =>
    have hfirst := hkeep a List.mem_cons_self s hs
    rcases hf : f a s with ⟨s', _ | e⟩
    · rw [sweep_cons_none hf]
      rw [hf] at hfirst
      exact ih (fun b hb => hkeep b (List.mem_cons_of_mem _ hb)) hfirst
    · rw [sweep_cons_some hf]
      rwa [hf] at hfirst

end Effects

end Lib
