import Switchback.Lib.Machine

/-!
# Observers

Some inputs of a machine only look at it: they may change its state, but not what the other inputs
will see.  A run is compared with the same run less its observers.
-/

namespace Lib

namespace Machine

variable {σ ι ω : Type*} {step : σ → ι → σ × List ω} {time : ι → ℕ} {observer : ι → Bool}
  {R : ℕ → σ → σ → Prop} {Ok : σ → ι → Prop}

/-- The steps of a run meet `Ok`. -/
def StepsOk (step : σ → ι → σ × List ω) (Ok : σ → ι → Prop) (s : σ) (inputs : List ι) : Prop :=
  ∀ v ∈ visited (fun s i => (step s i).1) s inputs, Ok v.1 v.2

theorem stepsOk_cons {s : σ} {i : ι} {inputs : List ι} :
    StepsOk step Ok s (i :: inputs) ↔ Ok s i ∧ StepsOk step Ok (step s i).1 inputs := by
  unfold StepsOk
  rw [visited, List.forall_mem_cons]

/-- **The observer rule.** -/
theorem run_observers (hobserve : ∀ t s s' i, t ≤ time i → observer i = true → R t s s' →
      R (time i) (step s i).1 s' ∧ (step s i).2 = [])
    (hstep : ∀ t s s' i, t ≤ time i → observer i = false → Ok s i → Ok s' i → R t s s' →
      R (time i) (step s i).1 (step s' i).1 ∧ (step s i).2 = (step s' i).2)
    {t : ℕ} {s s' : σ} (h : R t s s') {inputs : List ι} (htime : Timely time t inputs)
    (hok : StepsOk step Ok s inputs)
    (hok' : StepsOk step Ok s' (inputs.filter fun i => !observer i)) :
    (run step s inputs).2 = (run step s' (inputs.filter fun i => !observer i)).2 := by
  induction inputs generalizing t s s' with
  | nil => rfl
  | cons i inputs ih =>
    obtain ⟨hle, hrest⟩ := htime.cons
    obtain ⟨hi, hok⟩ := stepsOk_cons.1 hok
    cases hobs : observer i with
    | true =>
      -- the run without observers waits
      have hskip : (i :: inputs).filter (fun i => !observer i) =
          inputs.filter fun i => !observer i := List.filter_cons_of_neg (by simp [hobs])
      rw [hskip] at hok' ⊢
      obtain ⟨hnext, hout⟩ := hobserve t s s' i hle hobs h
      rw [run, hout, List.nil_append]
      exact ih hnext hrest hok hok'
    | false =>
      have htake : (i :: inputs).filter (fun i => !observer i) =
          i :: inputs.filter fun i => !observer i := List.filter_cons_of_pos (by simp [hobs])
      rw [htake] at hok' ⊢
      obtain ⟨hi', hok'⟩ := stepsOk_cons.1 hok'
      obtain ⟨hnext, hout⟩ := hstep t s s' i hle hobs hi hi' h
      show (step s i).2 ++ _ = (step s' i).2 ++ _
      rw [hout, ih hnext hrest hok hok']

end Machine

end Lib
