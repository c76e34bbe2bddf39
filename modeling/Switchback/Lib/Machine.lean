import Mathlib.Algebra.Order.Ring.Int
import Mathlib.Data.List.Basic

/-!
# Machines with inputs and outputs

A step takes a state and an input to a state and some outputs; a run takes a list of inputs.
-/

namespace Lib

namespace Machine

variable {σ ι ω : Type*} (step : σ → ι → σ × List ω)

def run (s : σ) : List ι → σ × List ω
  | [] => (s, [])
  | i :: inputs =>
      let next := run (step s i).1 inputs
      (next.1, (step s i).2 ++ next.2)

theorem run_append (s : σ) (a b : List ι) :
    run step s (a ++ b) =
      ((run step (run step s a).1 b).1, (run step s a).2 ++ (run step (run step s a).1 b).2) := by
  induction a generalizing s with
  | nil => rfl
  | cons i a ih =>
    rw [List.cons_append, run, ih]
    simp [run]

variable {step}

/-- The times do not decrease, from `t` on. -/
def Timely (time : ι → ℕ) (t : ℕ) (inputs : List ι) : Prop :=
  (t :: inputs.map time).Pairwise (· ≤ ·)

instance (time : ι → ℕ) (t : ℕ) (inputs : List ι) : Decidable (Timely time t inputs) :=
  inferInstanceAs (Decidable (List.Pairwise _ _))

theorem Timely.cons {time : ι → ℕ} {t : ℕ} {i : ι} {inputs : List ι}
    (h : Timely time t (i :: inputs)) : t ≤ time i ∧ Timely time (time i) inputs := by
  obtain ⟨hle, hrest⟩ := List.pairwise_cons.mp h
  exact ⟨hle _ List.mem_cons_self, hrest⟩

/-- Inputs at one time. -/
theorem Timely.const {time : ι → ℕ} {t : ℕ} {inputs : List ι} (h : ∀ i ∈ inputs, time i = t) :
    Timely time t inputs := by
  have hmem : ∀ x ∈ t :: inputs.map time, x = t := by
    intro x hx
    rcases List.mem_cons.mp hx with rfl | hx
    · rfl
    · obtain ⟨i, hi, rfl⟩ := List.mem_map.mp hx
      exact h i hi
  refine List.Pairwise.imp_of_mem ?_ (List.pairwise_of_forall fun _ _ => trivial)
  intro a b ha hb _
  exact Nat.le_of_eq ((hmem a ha).trans (hmem b hb).symm)

/-- **The invariant rule with time.** -/
theorem run_forall_timed {time : ι → ℕ} {I : ℕ → σ → Prop} {P : ω → Prop}
    (hstep : ∀ t s i, t ≤ time i → I t s → I (time i) (step s i).1 ∧ ∀ o ∈ (step s i).2, P o)
    {t : ℕ} {s : σ} (h : I t s) {inputs : List ι} (htime : Timely time t inputs) :
    ∀ o ∈ (run step s inputs).2, P o := by
  induction inputs generalizing t s with
  | nil => exact fun o ho => absurd ho (by simp [run])
  | cons i inputs ih =>
    obtain ⟨hle, hrest⟩ := htime.cons
    obtain ⟨hI, hP⟩ := hstep t s i hle h
    intro o ho
    rcases List.mem_append.mp ho with ho | ho
    · exact hP o ho
    · exact ih hI hrest o ho

/-- **The invariant rule.** -/
theorem run_forall {I : σ → Prop} {P : ω → Prop}
    (hstep : ∀ s i, I s → I (step s i).1 ∧ ∀ o ∈ (step s i).2, P o) {s : σ} (h : I s)
    (inputs : List ι) : I (run step s inputs).1 ∧ ∀ o ∈ (run step s inputs).2, P o := by
  induction inputs generalizing s with
  | nil => exact ⟨h, fun o ho => absurd ho (by simp [run])⟩
  | cons i inputs ih =>
    obtain ⟨hI, hP⟩ := hstep s i h
    obtain ⟨hend, hrest⟩ := ih hI
    refine ⟨hend, fun o ho => ?_⟩
    rcases List.mem_append.mp ho with ho | ho
    · exact hP o ho
    · exact hrest o ho

/-- **The history rule.**  An invariant of the state, the outputs so far and the inputs to come. -/
theorem run_history {I : σ → List ω → List ι → Prop}
    (hstep : ∀ s log i inputs, I s log (i :: inputs) → I (step s i).1 (log ++ (step s i).2) inputs)
    {s : σ} {log : List ω} {inputs : List ι} (h : I s log inputs) :
    I (run step s inputs).1 (log ++ (run step s inputs).2) [] := by
  induction inputs generalizing s log with
  | nil => simpa [run] using h
  | cons i inputs ih =>
    have hrest := ih (hstep s log i inputs h)
    rwa [List.append_assoc] at hrest

/-- **The balance rule.**  What is held before a step and what it takes in make up what is held
after it and what it gives out. -/
theorem run_balance {held : σ → ℕ} {taken given : List ω → ℕ} (htaken₀ : taken [] = 0)
    (hgiven₀ : given [] = 0) (htaken : ∀ a b, taken (a ++ b) = taken a + taken b)
    (hgiven : ∀ a b, given (a ++ b) = given a + given b)
    (hstep : ∀ s i, held s + taken (step s i).2 = held (step s i).1 + given (step s i).2) (s : σ)
    (inputs : List ι) :
    held s + taken (run step s inputs).2 =
      held (run step s inputs).1 + given (run step s inputs).2 := by
  induction inputs generalizing s with
  | nil => rw [run, htaken₀, hgiven₀]
  | cons i inputs ih =>
    have hfirst := hstep s i
    have hrest := ih (step s i).1
    rw [run, htaken, hgiven]
    dsimp only
    omega

/-! ### Without outputs -/

section States

variable {next : σ → ι → σ} {time : ι → ℕ} {I : ℕ → σ → Prop}

/-- What every step under `C` keeps, and the passing of time, holds at the end of a run. -/
theorem foldl_inv_timed {C : ι → Prop} (hmono : ∀ t t' s, t ≤ t' → I t s → I t' s)
    (hstep : ∀ t s i, C i → t ≤ time i → I t s → I (time i) (next s i)) {t : ℕ} {s : σ}
    (h : I t s) {inputs : List ι} (hC : ∀ i ∈ inputs, C i) (htime : Timely time t inputs)
    {now : ℕ} (hnow : t ≤ now) (hle : ∀ i ∈ inputs, time i ≤ now) :
    I now (inputs.foldl next s) := by
  induction inputs generalizing t s with
  | nil => exact hmono t now s hnow h
  | cons i inputs ih =>
    obtain ⟨hti, hrest⟩ := htime.cons
    obtain ⟨hCi, hCrest⟩ := List.forall_mem_cons.mp hC
    obtain ⟨hi, hlerest⟩ := List.forall_mem_cons.mp hle
    exact ih (hstep t s i hCi hti h) hCrest hrest hi hlerest

/-- **Independent cells.**  Where an input changes the cell of its own key only, the cell of a key
after a run is what the inputs of that key make of it. -/
theorem foldl_cell {κ τ : Type*} [DecidableEq κ] (key : ι → κ) (cell : κ → σ → τ)
    (cellNext : κ → τ → ι → τ) {I : σ → Prop} (hinv : ∀ s i, I s → I (next s i))
    (hown : ∀ s i, I s → cell (key i) (next s i) = cellNext (key i) (cell (key i) s) i)
    (hother : ∀ s i k, I s → k ≠ key i → cell k (next s i) = cell k s) (k : κ) {s : σ} (hs : I s)
    (inputs : List ι) :
    cell k (inputs.foldl next s) =
      (inputs.filter fun i => key i = k).foldl (cellNext k) (cell k s) := by
  induction inputs generalizing s with
  | nil => rfl
  | cons i inputs ih =>
    rw [List.foldl_cons, ih (hinv s i hs)]
    by_cases hk : key i = k
    · rw [List.filter_cons_of_pos (by simpa using hk), List.foldl_cons, ← hk, hown s i hs]
    · rw [List.filter_cons_of_neg (by simpa using hk), hother s i k hs (Ne.symm hk)]

/-- The states of a run, each with the input that comes next. -/
def visited (next : σ → ι → σ) (s : σ) : List ι → List (σ × ι)
  | [] => []
  | i :: inputs => (s, i) :: visited next (next s i) inputs

theorem visited_append (s : σ) (a b : List ι) :
    visited next s (a ++ b) = visited next s a ++ visited next (a.foldl next s) b := by
  induction a generalizing s with
  | nil => rfl
  | cons i a ih => rw [List.cons_append, visited, ih]; rfl

/-- **The invariant rule for visited states.** -/
theorem visited_inv {C : σ → ι → Prop} {J : σ → Prop}
    (hstep : ∀ s i, C s i → J s → J (next s i)) {s : σ} (h : J s) {inputs : List ι}
    (hC : ∀ v ∈ visited next s inputs, C v.1 v.2) : ∀ v ∈ visited next s inputs, J v.1 := by
  induction inputs generalizing s with
  | nil => exact fun v hv => absurd hv List.not_mem_nil
  | cons i inputs ih =>
    obtain ⟨hi, hrest⟩ := List.forall_mem_cons.1 hC
    exact List.forall_mem_cons.2 ⟨h, ih (hstep s i hi h) hrest⟩

theorem exists_split_of_mem_visited {s : σ} {inputs : List ι} {v : σ × ι}
    (h : v ∈ visited next s inputs) :
    ∃ a b, inputs = a ++ v.2 :: b ∧ v.1 = a.foldl next s := by
  induction inputs generalizing s with
  | nil => cases h
  | cons i inputs ih =>
    rcases List.mem_cons.1 h with rfl | h
    · exact ⟨[], inputs, rfl, rfl⟩
    · obtain ⟨a, b, hinputs, hstate⟩ := ih h
      exact ⟨i :: a, b, by rw [hinputs]; rfl, hstate⟩

/-- **The order rule.**  Along a run every later state stands in a preorder to every earlier one
exactly when every step does. -/
theorem foldl_rel_iff {R : σ → σ → Prop} (hrefl : ∀ s, R s s)
    (htrans : ∀ a b c, R a b → R b c → R a c) (s : σ) (inputs : List ι) :
    (∀ a b c, inputs = a ++ b ++ c → R (a.foldl next s) ((a ++ b).foldl next s)) ↔
      ∀ v ∈ visited next s inputs, R v.1 (next v.1 v.2) := by
  have hend (t : σ) (b : List ι) (h : ∀ v ∈ visited next t b, R v.1 (next v.1 v.2)) :
      R t (b.foldl next t) := by
    induction b generalizing t with
    | nil => exact hrefl t
    | cons i b ih =>
      obtain ⟨hfirst, hrest⟩ := List.forall_mem_cons.mp h
      exact htrans _ _ _ hfirst (ih (next t i) hrest)
  constructor
  · intro h v hv
    obtain ⟨a, b, hinputs, hstate⟩ := exists_split_of_mem_visited hv
    have hstep := h a [v.2] b (by rw [hinputs]; simp)
    rw [List.foldl_append, ← hstate] at hstep
    exact hstep
  · rintro h a b c rfl
    rw [List.foldl_append]
    apply hend
    intro v hv
    apply h v
    rw [visited_append, visited_append]
    exact List.mem_append_left _ (List.mem_append_right _ hv)

/-- **The potential rule.**  Where every step is paid by what it takes from the potential and by
what it gains, so is a run. -/
theorem foldl_potential {I : σ → Prop} {potential : σ → ℕ} {cost gain : σ → ι → ℕ}
    (hinv : ∀ s i, I s → I (next s i))
    (hstep : ∀ s i, I s → cost s i + potential (next s i) ≤ potential s + gain s i) {s : σ}
    (hs : I s) (inputs : List ι) :
    ((visited next s inputs).map fun v => cost v.1 v.2).sum + potential (inputs.foldl next s) ≤
      potential s + ((visited next s inputs).map fun v => gain v.1 v.2).sum := by
  induction inputs generalizing s with
  | nil => exact Nat.le_of_eq (Nat.add_comm _ _)
  | cons i inputs ih =>
    have hfirst := hstep s i hs
    have hrest := ih (hinv s i hs)
    simp only [visited, List.map_cons, List.sum_cons, List.foldl_cons]
    omega

/-- How often the steps of a run give `k`, step by step. -/
theorem count_filterMap_eq_sum {κ : Type*} [DecidableEq κ] (gives : σ × ι → Option κ) (k : κ)
    (vs : List (σ × ι)) :
    (vs.filterMap gives).count k = (vs.map fun v => (gives v).toList.count k).sum := by
  induction vs with
  | nil => rfl
  | cons v vs ih =>
    rw [List.map_cons, List.sum_cons, ← ih]
    cases hgives : gives v with
    | none => simp [List.filterMap_cons_none hgives]
    | some k' => simp [List.filterMap_cons_some hgives, List.count_cons, Nat.add_comm]

/-- **The once rule.**  What a step gives only where it can and can never again is given once in a
run. -/
theorem visited_nodup {κ : Type*} {gives : σ × ι → Option κ} {can : κ → σ → Prop}
    (hkeep : ∀ s i k, can k (next s i) → can k s)
    (hgives : ∀ s i k, gives (s, i) = some k → can k s ∧ ¬ can k (next s i)) (s : σ)
    (inputs : List ι) :
    ((visited next s inputs).filterMap gives).Nodup ∧
      ∀ k ∈ (visited next s inputs).filterMap gives, can k s := by
  induction inputs generalizing s with
  | nil => exact ⟨List.nodup_nil, fun k hk => by cases hk⟩
  | cons i inputs ih =>
    obtain ⟨hnodup, hcan⟩ := ih (next s i)
    have hrest (k : κ) (hk : k ∈ (visited next (next s i) inputs).filterMap gives) : can k s :=
      hkeep s i k (hcan k hk)
    rw [visited]
    cases hg : gives (s, i) with
    | none =>
      rw [List.filterMap_cons_none hg]
      exact ⟨hnodup, hrest⟩
    | some k =>
      obtain ⟨hbefore, hafter⟩ := hgives s i k hg
      rw [List.filterMap_cons_some hg]
      exact ⟨List.nodup_cons.2 ⟨fun hk => hafter (hcan k hk), hnodup⟩,
        List.forall_mem_cons.2 ⟨hbefore, hrest⟩⟩

theorem run_fst (step : σ → ι → σ × List ω) (s : σ) (inputs : List ι) :
    (run step s inputs).1 = inputs.foldl (fun s i => (step s i).1) s := by
  induction inputs generalizing s with
  | nil => rfl
  | cons i inputs ih => exact ih (step s i).1

theorem run_snd (step : σ → ι → σ × List ω) (s : σ) (inputs : List ι) :
    (run step s inputs).2 =
      (visited (fun s i => (step s i).1) s inputs).flatMap fun v => (step v.1 v.2).2 := by
  induction inputs generalizing s with
  | nil => rfl
  | cons i inputs ih =>
    rw [run, visited, List.flatMap_cons, ih]

/-- **The exact-condition rule.**  Where a safe state stays safe exactly when the step meets `Ok`,
a run is safe after every step exactly when every step meets `Ok`. -/
theorem safe_iff_timed {Safe : ℕ → σ → Prop} {Ok : σ → ι → Prop}
    (hinv : ∀ t s i, t ≤ time i → I t s → I (time i) (next s i))
    (hok : ∀ t s i, t ≤ time i → I t s → Safe t s → (Safe (time i) (next s i) ↔ Ok s i))
    {t : ℕ} {s : σ} (h : I t s) (hsafe : Safe t s) {inputs : List ι}
    (htime : Timely time t inputs) :
    (∀ v ∈ visited next s inputs, Safe (time v.2) (next v.1 v.2)) ↔
      ∀ v ∈ visited next s inputs, Ok v.1 v.2 := by
  induction inputs generalizing t s with
  | nil => simp [visited]
  | cons i inputs ih =>
    obtain ⟨hti, hrest⟩ := htime.cons
    have hfirst := hok t s i hti h hsafe
    simp only [visited, List.forall_mem_cons]
    constructor
    · rintro ⟨hs, hall⟩
      exact ⟨hfirst.mp hs, (ih (hinv t s i hti h) hs hrest).mp hall⟩
    · rintro ⟨hs, hall⟩
      have hnext := hfirst.mpr hs
      exact ⟨hnext, (ih (hinv t s i hti h) hnext hrest).mpr hall⟩

/-- **The exact-condition rule for steps.**  Where `J` makes a step safe exactly when it meets `Ok`,
and such a step keeps `J`, every step of a run is safe exactly when every step meets `Ok`. -/
theorem safe_steps_iff {J : σ → Prop} {Safe Ok : σ → ι → Prop}
    (hok : ∀ s i, J s → (Safe s i ↔ Ok s i)) (hkeep : ∀ s i, J s → Ok s i → J (next s i)) {s : σ}
    (h : J s) (inputs : List ι) :
    (∀ v ∈ visited next s inputs, Safe v.1 v.2) ↔ ∀ v ∈ visited next s inputs, Ok v.1 v.2 := by
  induction inputs generalizing s with
  | nil => simp [visited]
  | cons i inputs ih =>
    simp only [visited, List.forall_mem_cons, hok s i h]
    constructor
    · rintro ⟨hi, hall⟩
      exact ⟨hi, (ih (hkeep s i h hi)).1 hall⟩
    · rintro ⟨hi, hall⟩
      exact ⟨hi, (ih (hkeep s i h hi)).2 hall⟩

end States

end Machine

end Lib
