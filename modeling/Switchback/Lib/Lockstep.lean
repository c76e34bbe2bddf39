import Switchback.Lib.Machine

/-!
# Machines in lockstep

* `Machine.run_lockstep`: machines whose steps keep a relation and show the same outputs show the
  same outputs over whole runs.
-/

namespace Lib

namespace Machine

variable {σ τ ι κ ω ψ ρ : Type*} {step : σ → ι → σ × List ω} {step' : τ → κ → τ × List ψ}

/-- **The lockstep rule.** -/
theorem run_lockstep {R : σ → τ → Prop} {f : ι → κ} {obs : ω → Option ρ} {obs' : ψ → Option ρ}
    (hstep : ∀ s t i, R s t → R (step s i).1 (step' t (f i)).1 ∧
      (step s i).2.filterMap obs = (step' t (f i)).2.filterMap obs')
    {s : σ} {t : τ} (h : R s t) (inputs : List ι) :
    R (run step s inputs).1 (run step' t (inputs.map f)).1 ∧
      (run step s inputs).2.filterMap obs = (run step' t (inputs.map f)).2.filterMap obs' := by
  induction inputs generalizing s t with
  | nil => exact ⟨h, rfl⟩
  | cons i inputs ih =>
    obtain ⟨hnext, hsame⟩ := hstep s t i h
    obtain ⟨hend, hrest⟩ := ih hnext
    refine ⟨hend, ?_⟩
    rw [List.map_cons, run, run, List.filterMap_append, List.filterMap_append, hsame, hrest]

end Machine

end Lib
