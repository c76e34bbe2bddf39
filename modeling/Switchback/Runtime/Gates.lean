import Switchback.Runtime.Isolation

/-!
# The gates before a dispatch

The loop does not dispatch to a provider whose circuit is open or whose spend is at its cap, nor
a request whose translation strict mode refuses.  The race looks at none of these.
-/

namespace Switchback

open Lib

/-- Strict mode refuses the translation of the request for the target. -/
def SchemaRefused (c : Call) (target : ExecutionTarget) : Prop :=
  c.snap.strictSchemaDownlevel = true ∧ ∃ adapter, c.snap.adapter target.providerId = some adapter ∧
    (highLossinessSchemaWarning (adapter.requestWarnings c.req target)).isSome

/-- At the moment of the call no gate of the loop is shut. -/
structure GatesOpen (c : Call) (d : Dispatch) : Prop where
  circuit : (d.breaker.view d.target.providerId d.now).state ≠ .open
  cap : overProviderCap c d.target.providerId d.ledger d.fault = .ok false
  schema : ¬ SchemaRefused c d.target

/-- No gate of the target can shut: its circuit never opens, no ledger brings it to its cap, and
strict mode does not refuse the request for it. -/
structure Ungated (c : Call) (target : ExecutionTarget) : Prop where
  circuit : c.snap.circuitBreaker.enabled = false ∨ c.snap.circuitBreaker.openSecs = 0
  cap : ∀ ledger fault, overProviderCap c target.providerId ledger fault = .ok false
  schema : ¬ SchemaRefused c target

/-! ### A race through a shut gate -/

theorem resolve_fresh {c : Call} (i : ℕ) {target : ExecutionTarget}
    (hne : c.accounts target.providerId ≠ []) :
    ∃ accountId lease r, (resolverBefore c i []).resolveWithSession target.providerId target.model
        [] (sessionAffinityKey c.req) (hedgeDelay c.snap.hedge i) =
          (.selected accountId lease, r) ∧
      r.breaker = .new c.snap.circuitBreaker := by
  obtain ⟨a, ha⟩ := List.exists_mem_of_ne_nil _ hne
  have hcand : (resolverBefore c i []).isCandidate target.providerId target.model [] none
      (hedgeDelay c.snap.hedge i) a = true := rfl
  obtain ⟨accountId, lease, hsel⟩ := (resolverBefore c i []).resolve_isSelected target.providerId
    target.model [] (sessionAffinityKey c.req) none (hedgeDelay c.snap.hedge i) ha hcand
  obtain ⟨-, hbreaker, -⟩ := (resolverBefore c i []).resolve_frame target.providerId target.model
    [] (sessionAffinityKey c.req) none (hedgeDelay c.snap.hedge i)
  exact ⟨accountId, lease, _, Prod.ext hsel rfl, hbreaker⟩

theorem runOps_circuitRecord (r : CredentialResolver) (providerId : String) (now n : ℕ) :
    (r.runOps ((List.replicate n (ResolverOp.circuitRecord providerId false)).map
        fun op => (now, op))).breaker =
      (List.replicate n false).foldl (fun b ok => b.record providerId ok now) r.breaker := by
  induction n generalizing r with
  | zero => rfl
  | succ n ih => exact ih (r.circuitRecord providerId false now)

/-- A target that the race dispatches while its circuit, its cap or its translation is in the way,
unless none can be. -/
theorem ungated_of_gatesOpen {c : Call} (hhedges : c.hedges = true) {target : ExecutionTarget}
    (htarget : target ∈ c.raced) (hadapter : (c.snap.adapter target.providerId).isSome)
    (hne : c.accounts target.providerId ≠ [])
    (h : ∀ events, Timely events → ∀ d ∈ dispatches c events, d.hedged = true → GatesOpen c d) :
    Ungated c target := by
  obtain ⟨i, hlt, hi⟩ := List.getElem_of_mem htarget
  have hget : c.raced[i]? = some target := by rw [List.getElem?_eq_getElem hlt, hi]
  obtain ⟨accountId, lease, r, hsel, hbreaker⟩ := resolve_fresh i hne
  have hgates (after : List ResolverOp) (ledger : UsageLedger) (fault : Option StoreError) :=
    h _ (timely_raceEvents c i [] after ledger fault) _
      (race_dispatches hhedges hget hadapter hsel after ledger fault) rfl
  refine ⟨?_, fun ledger fault => (hgates [] ledger fault).cap, (hgates [] .inMemory none).schema⟩
  -- failures of other requests open the circuit between the resolution and the dispatch
  by_contra hcircuit
  rw [not_or, Bool.not_eq_false] at hcircuit
  have hopen : (CircuitBreaker.new c.snap.circuitBreaker).openFor > 0 :=
    secs_pos (Nat.pos_of_ne_zero hcircuit.2)
  have hopened := CircuitBreaker.isOpen_after_failures (p := target.providerId) hcircuit.1
    (show (CircuitBreaker.new c.snap.circuitBreaker).stateOf target.providerId = {} from rfl)
    (Nat.le_max_right _ _) hopen (hedgeDelay c.snap.hedge i)
  have hgate := (hgates (List.replicate (CircuitBreaker.new c.snap.circuitBreaker).threshold
    (.circuitRecord target.providerId false)) .inMemory none).circuit
  dsimp only at hgate
  rw [runOps_circuitRecord, hbreaker] at hgate
  exact hgate ((CircuitBreaker.view_open_iff _ _ _).mpr hopened)

/-- **The race never dispatches through a gate that is shut, exactly when no gate of the raced
candidates can shut.** -/
theorem hedge_gated_iff (c : Call) :
    (∀ events, Timely events → ∀ d ∈ dispatches c events, d.hedged = true → GatesOpen c d) ↔
      (c.hedges = true → ∀ target ∈ c.raced, (c.snap.adapter target.providerId).isSome →
        c.accounts target.providerId ≠ [] → Ungated c target) := by
  constructor
  · intro h hhedges target htarget hadapter hne
    exact ungated_of_gatesOpen hhedges htarget hadapter hne h
  · intro h events htime d hd hhedged
    have hok := dispatchOk_of_mem htime hd
    obtain ⟨hhedges, hraced, hadapter, a, ha, -⟩ := hok.hedges hhedged
    have hungated := h hhedges d.target hraced hadapter (List.ne_nil_of_mem ha)
    refine ⟨?_, hungated.cap d.ledger d.fault, hungated.schema⟩
    rw [Ne, CircuitBreaker.view_open_iff]
    rcases hungated.circuit with hoff | hzero
    · rintro ⟨hen, -⟩
      rw [hok.enabled, hoff] at hen
      exact absurd hen (by simp)
    · exact hok.closed hzero d.target.providerId

/-- One failure opens a circuit, the first provider may spend nothing, and strict mode refuses
every translation. -/
def gatedCall : Call where
  snap :=
    { providers := .ofList
        [("p", { accounts := [{ id := "a" }] }), ("q", { accounts := [{ id := "c" }] })]
      adapter := fun _ => some { requestWarnings := fun _ _ => ["schema_downlevel:high: oneOf"] }
      circuitBreaker := { enabled := true, failureThreshold := 1 }
      hedge := { enabled := true }
      perProviderUsd := .ofList [("p", Fp.zero)]
      strictSchemaDownlevel := true }
  req := { id := "r", model := "m", messages := [] }
  candidates := [.new "p" "m" .modelApi, .new "q" "m" .modelApi]
  fromStr := fun _ => .error ""

/-- The failure of another request opens the circuit before the dispatch. -/
def gatedEvents : List Event :=
  raceEvents gatedCall 0 [] [.circuitRecord "p" false] .inMemory none

/-- The race dispatches although every gate is shut. -/
theorem race_ignores_gates :
    Timely gatedEvents ∧
      (dispatches gatedCall gatedEvents).map
        (fun d => (d.hedged, d.target.providerId,
          (d.breaker.view d.target.providerId d.now).state,
          (overProviderCap gatedCall d.target.providerId d.ledger d.fault).toOption)) =
        [(true, "p", .open, some true)] ∧
      SchemaRefused gatedCall (.new "p" "m" .modelApi) :=
  ⟨timely_raceEvents _ _ _ _ _ _, by decide +kernel, rfl, _, rfl, by decide +kernel⟩

end Switchback
