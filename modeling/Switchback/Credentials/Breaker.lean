import Mathlib.Data.String.Basic
import Mathlib.Tactic.NormNum
import Switchback.Lib.OrdMap

/-!
# The circuit breaker

One circuit for each provider: closed, open until a time, half-open while it is probed.  Times and
durations are in nanoseconds.
-/

namespace Switchback

open Lib

def secs (n : ℕ) : ℕ := n * 10 ^ 9

/-- The first time that an `Instant` does not hold. -/
def instantEnd : ℕ := secs (2 ^ 63)

theorem secs_pos {n : ℕ} (h : 0 < n) : 0 < secs n := Nat.mul_pos h (by norm_num)

def millis (n : ℕ) : ℕ := n * 10 ^ 6

structure BreakerConfig where
  enabled : Bool := false
  failureThreshold : ℕ := 5
  openSecs : ℕ := 30

structure BreakerState where
  /-- Consecutive failures while closed. -/
  failures : ℕ := 0
  openedUntil : Option ℕ := none
  halfOpen : Bool := false

structure CircuitBreaker where
  enabled : Bool
  threshold : ℕ
  openFor : ℕ
  states : OrdMap String BreakerState := OrdMap.empty

inductive CircuitState where
  | closed
  | open
  | halfOpen
  deriving DecidableEq

structure CircuitView where
  state : CircuitState
  consecutiveFailures : ℕ
  openRemainingMs : Option ℕ

def CircuitView.closed (consecutiveFailures : ℕ) : CircuitView :=
  ⟨.closed, consecutiveFailures, none⟩

namespace CircuitBreaker

def new (cfg : BreakerConfig) : CircuitBreaker where
  enabled := cfg.enabled
  threshold := max cfg.failureThreshold 1
  openFor := secs cfg.openSecs

/-- The state of a provider; one that was never attempted is closed. -/
def stateOf (b : CircuitBreaker) (provider : String) : BreakerState :=
  (b.states.get provider).getD {}

def setState (b : CircuitBreaker) (provider : String) (state : BreakerState) : CircuitBreaker :=
  { b with states := b.states.insert provider state }

/-- May the provider be attempted now? -/
def allows (b : CircuitBreaker) (provider : String) (now : ℕ) : Bool × CircuitBreaker :=
  if !b.enabled then (true, b)
  else
    let state := b.stateOf provider
    match state.openedUntil with
    | some until_ =>
        if now < until_ then (false, b.setState provider state)
        else
          -- the cooldown is over: probe once
          (true, b.setState provider { state with openedUntil := none, halfOpen := true })
    | none => (true, b.setState provider state)

def view (b : CircuitBreaker) (provider : String) (now : ℕ) : CircuitView :=
  if !b.enabled then CircuitView.closed 0
  else
    match b.states.get provider with
    | none => CircuitView.closed 0
    | some state =>
        match state.openedUntil with
        | some until_ =>
            if now < until_ then ⟨.open, 0, some ((until_ - now) / 10 ^ 6)⟩
            else ⟨.halfOpen, 0, none⟩
        | none => if state.halfOpen then ⟨.halfOpen, 0, none⟩ else CircuitView.closed state.failures

/-- What the outcome of an attempt does to its state, where the clock has the end of the cooldown. -/
def recordState (b : CircuitBreaker) (state : BreakerState) (ok : Bool) (now : ℕ) : BreakerState :=
  if ok then { failures := 0, openedUntil := none, halfOpen := false }
  else if state.halfOpen then
    { failures := 0, openedUntil := some (now + b.openFor), halfOpen := false }
  else if state.failures + 1 ≥ b.threshold then
    { state with failures := 0, openedUntil := some (now + b.openFor) }
  else { state with failures := state.failures + 1 }

/-- The outcome of an attempt; `overflows` says when the call panics instead. -/
def record (b : CircuitBreaker) (provider : String) (ok : Bool) (now : ℕ) : CircuitBreaker :=
  if !b.enabled then b
  else b.setState provider (b.recordState (b.stateOf provider) ok now)

/-! ### When a circuit is open -/

variable (b : CircuitBreaker) {now : ℕ}

@[simp] theorem stateOf_setState (p q : String) (state : BreakerState) :
    (b.setState p state).stateOf q = if q = p then state else b.stateOf q := by
  unfold stateOf setState
  rw [OrdMap.get_insert]
  split <;> rfl

/-- The provider's circuit is open. -/
def isOpen (b : CircuitBreaker) (provider : String) (now : ℕ) : Prop :=
  b.enabled = true ∧ ∃ u, (b.stateOf provider).openedUntil = some u ∧ now < u

theorem view_open_iff (provider : String) (now : ℕ) :
    (b.view provider now).state = .open ↔ b.isOpen provider now := by
  unfold view isOpen stateOf
  cases b.enabled with
  | false => simp [CircuitView.closed]
  | true =>
    cases b.states.get provider with
    | none => simp [CircuitView.closed]
    | some state =>
      cases hu : state.openedUntil with
      | none =>
        cases hh : state.halfOpen
        · simp [CircuitView.closed, hu, hh]
        · simp [hu, hh]
      | some u =>
        by_cases hlt : now < u
        · simp [hu, hlt]
        · simp [hu, hlt]

/-- An open circuit is what a caller of `allows` is refused for. -/
theorem allows_eq_false_iff (provider : String) (now : ℕ) :
    (b.allows provider now).1 = false ↔ b.isOpen provider now := by
  unfold allows isOpen
  cases b.enabled with
  | false => simp
  | true =>
    cases hu : (b.stateOf provider).openedUntil with
    | none => simp [hu]
    | some u =>
      by_cases hlt : now < u
      · simp [hu, hlt]
      · simp [hu, hlt]

variable (p : String)

@[simp] theorem record_enabled (ok : Bool) (now : ℕ) : (b.record p ok now).enabled = b.enabled := by
  unfold record
  split <;> rfl

@[simp] theorem record_openFor (ok : Bool) (now : ℕ) : (b.record p ok now).openFor = b.openFor := by
  unfold record
  split <;> rfl

@[simp] theorem record_threshold (ok : Bool) (now : ℕ) :
    (b.record p ok now).threshold = b.threshold := by
  unfold record
  split <;> rfl

@[simp] theorem allows_enabled (now : ℕ) : (b.allows p now).2.enabled = b.enabled := by
  unfold allows
  split
  · rfl
  · dsimp only
    split
    · split <;> rfl
    · rfl

@[simp] theorem allows_openFor (now : ℕ) : (b.allows p now).2.openFor = b.openFor := by
  unfold allows
  split
  · rfl
  · dsimp only
    split
    · split <;> rfl
    · rfl

theorem stateOf_failures {b : CircuitBreaker} (hen : b.enabled = true) {p : String}
    (hp : b.stateOf p = {}) (now : ℕ) {k : ℕ} (hk : k < b.threshold) :
    ((List.replicate k false).foldl (fun b ok => b.record p ok now) b).stateOf p =
        { failures := k } ∧
      ((List.replicate k false).foldl (fun b ok => b.record p ok now) b).enabled = true ∧
      ((List.replicate k false).foldl (fun b ok => b.record p ok now) b).threshold =
        b.threshold ∧
      ((List.replicate k false).foldl (fun b ok => b.record p ok now) b).openFor = b.openFor := by
  induction k with
  | zero => exact ⟨hp, hen, rfl, rfl⟩
  | succ k ih =>
    obtain ⟨hstate, hen', hthr, hopen⟩ := ih (by omega)
    rw [List.replicate_succ', List.foldl_append, List.foldl_cons, List.foldl_nil]
    generalize (List.replicate k false).foldl (fun b ok => b.record p ok now) b = b' at *
    refine ⟨?_, by simpa using hen', by simpa using hthr, by simpa using hopen⟩
    have hlow : ¬ k + 1 ≥ b'.threshold := by omega
    simp [record, hen', recordState, hstate, hlow]

theorem isOpen_after_failures {b : CircuitBreaker} (hen : b.enabled = true) {p : String}
    (hp : b.stateOf p = {}) (hthr : 1 ≤ b.threshold) (hopen : 0 < b.openFor) (now : ℕ) :
    ((List.replicate b.threshold false).foldl (fun b ok => b.record p ok now) b).isOpen p now := by
  obtain ⟨k, hk⟩ : ∃ k, b.threshold = k + 1 := ⟨b.threshold - 1, by omega⟩
  obtain ⟨hstate, hen', hthr', hopen'⟩ :=
    stateOf_failures hen hp now (show k < b.threshold by omega)
  rw [hk, List.replicate_succ', List.foldl_append, List.foldl_cons, List.foldl_nil]
  generalize (List.replicate k false).foldl (fun b ok => b.record p ok now) b = b' at *
  have hhigh : k + 1 ≥ b'.threshold := by omega
  refine ⟨by simpa using hen', now + b'.openFor, ?_, by omega⟩
  simp [record, hen', recordState, hstate, hhigh]

/-- No circuit is open beyond `now`. -/
def Elapsed (b : CircuitBreaker) (now : ℕ) : Prop :=
  ∀ p u, (b.stateOf p).openedUntil = some u → u ≤ now

theorem Elapsed.mono {b : CircuitBreaker} {t t' : ℕ} (h : b.Elapsed t) (ht : t ≤ t') :
    b.Elapsed t' := fun p u hu => (h p u hu).trans ht

theorem Elapsed.not_isOpen {b : CircuitBreaker} (h : b.Elapsed now) (p : String) :
    ¬ b.isOpen p now := by
  rintro ⟨-, u, hu, hlt⟩
  exact absurd (h p u hu) (by omega)

/-- A circuit that opens for no time is never open. -/
theorem Elapsed.record {b : CircuitBreaker} (hopen : b.openFor = 0) (h : b.Elapsed now)
    (p : String) (ok : Bool) : (b.record p ok now).Elapsed now := by
  unfold CircuitBreaker.record
  split
  · exact h
  · intro q u hu
    rw [stateOf_setState] at hu
    split at hu
    · unfold recordState at hu
      have hp := h p u
      split at hu
      · exact absurd hu (by simp)
      · split at hu
        · have : now + b.openFor = u := Option.some.inj hu
          omega
        · split at hu
          · have : now + b.openFor = u := Option.some.inj hu
            omega
          · exact hp hu
    · exact h q u hu

theorem Elapsed.allows {b : CircuitBreaker} (h : b.Elapsed now) (p : String) :
    (b.allows p now).2.Elapsed now := by
  have hset (state : BreakerState) (hs : ∀ u, state.openedUntil = some u → u ≤ now) :
      (b.setState p state).Elapsed now := by
    intro q u hu
    rw [stateOf_setState] at hu
    split at hu
    · exact hs u hu
    · exact h q u hu
  unfold CircuitBreaker.allows
  split
  · exact h
  · dsimp only
    split
    · split
      · exact hset _ (h p)
      · exact hset _ (by simp)
    · exact hset _ (h p)

end CircuitBreaker

end Switchback
