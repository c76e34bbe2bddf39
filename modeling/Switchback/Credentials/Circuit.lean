import Mathlib.Data.List.Induction
import Mathlib.Data.List.Infix
import Switchback.Credentials.Breaker
import Switchback.Lib.Machine

/-!
# Runs of the circuit breaker

Any number of requests share the breaker; each of its calls takes the lock, so a run is a list of
calls in the order of the lock.  A call that panics leaves the lock poisoned for all of them.
-/

namespace Switchback

open Lib

namespace CircuitBreaker

/-- A call of the breaker, at a time. -/
inductive Call where
  | allows (provider : String) (now : ℕ)
  | record (provider : String) (ok : Bool) (now : ℕ)
  | view (provider : String) (now : ℕ)

namespace Call

def provider : Call → String
  | allows p _ => p
  | record p _ _ => p
  | view p _ => p

def now : Call → ℕ
  | allows _ t => t
  | record _ _ t => t
  | view _ t => t

/-- An outcome recorded for the provider. -/
def isRecord (p : String) : Call → Bool
  | record q _ _ => q = p
  | _ => false

end Call

inductive Reply where
  | allowed (yes : Bool)
  | recorded
  | viewed (view : CircuitView)

def step (b : CircuitBreaker) : Call → CircuitBreaker
  | .allows p t => (b.allows p t).2
  | .record p ok t => b.record p ok t
  | .view _ _ => b

def reply (b : CircuitBreaker) : Call → Reply
  | .allows p t => .allowed (b.allows p t).1
  | .record _ _ _ => .recorded
  | .view p t => .viewed (b.view p t)

def after (b : CircuitBreaker) (calls : List Call) : CircuitBreaker := calls.foldl step b

theorem after_append (b : CircuitBreaker) (calls calls' : List Call) :
    b.after (calls ++ calls') = (b.after calls).after calls' := List.foldl_append

theorem after_concat (b : CircuitBreaker) (calls : List Call) (call : Call) :
    b.after (calls ++ [call]) = (b.after calls).step call := b.after_append calls [call]

/-! ### One provider at a time -/

/-- What a call does to the state of its own provider. -/
def stepState (b : CircuitBreaker) (state : BreakerState) : Call → BreakerState
  | .allows _ t =>
      match state.openedUntil with
      | some u => if t < u then state else { state with openedUntil := none, halfOpen := true }
      | none => state
  | .record _ ok t => b.recordState state ok t
  | .view _ _ => state

section Steps

variable (b : CircuitBreaker) (call : Call)

theorem step_config : (b.step call).enabled = b.enabled ∧ (b.step call).threshold = b.threshold ∧
    (b.step call).openFor = b.openFor := by
  cases call with
  | view => exact ⟨rfl, rfl, rfl⟩
  | record p ok t => exact ⟨b.record_enabled p ok t, b.record_threshold p ok t,
      b.record_openFor p ok t⟩
  | allows p t =>
    refine ⟨b.allows_enabled p t, ?_, b.allows_openFor p t⟩
    unfold step allows
    dsimp only
    split
    · rfl
    · split
      · split <;> rfl
      · rfl

theorem stateOf_step_own (h : b.enabled = true) {p : String} (hp : call.provider = p) :
    (b.step call).stateOf p = b.stepState (b.stateOf p) call := by
  subst hp
  cases call with
  | view => rfl
  | record p ok t => simp [step, record, h, Call.provider, stepState]
  | allows p t =>
    simp only [step, allows, h, Call.provider, stepState]
    cases hu : (b.stateOf p).openedUntil with
    | none => simp
    | some u => by_cases hlt : t < u <;> simp [hlt]

theorem stateOf_step_other {q : String} (h : q ≠ call.provider) :
    (b.step call).stateOf q = b.stateOf q := by
  cases call with
  | view => rfl
  | record p ok t =>
    have hne : q ≠ p := h
    unfold step record
    dsimp only
    split
    · rfl
    · rw [stateOf_setState, if_neg hne]
  | allows p t =>
    have hne : q ≠ p := h
    have hset (state : BreakerState) : (b.setState p state).stateOf q = b.stateOf q := by
      rw [stateOf_setState, if_neg hne]
    unfold step allows
    dsimp only
    split
    · rfl
    · split
      · split <;> exact hset _
      · exact hset _

end Steps

/-- A breaker of the same configuration. -/
structure Alike (b b' : CircuitBreaker) : Prop where
  enabled : b'.enabled = b.enabled
  threshold : b'.threshold = b.threshold
  openFor : b'.openFor = b.openFor

theorem Alike.step {b b' : CircuitBreaker} (h : Alike b b') (call : Call) :
    Alike b (b'.step call) := by
  obtain ⟨henabled, hthreshold, hopen⟩ := b'.step_config call
  exact ⟨henabled.trans h.enabled, hthreshold.trans h.threshold, hopen.trans h.openFor⟩

theorem Alike.stepState_eq {b b' : CircuitBreaker} (h : Alike b b') :
    b'.stepState = b.stepState := by
  funext state call
  cases call with
  | record p ok t => simp only [stepState, recordState, h.threshold, h.openFor]
  | _ => rfl

theorem alike_after (b : CircuitBreaker) (calls : List Call) : Alike b (b.after calls) := by
  induction calls using List.reverseRec with
  | nil => exact ⟨rfl, rfl, rfl⟩
  | append_singleton calls call ih =>
    rw [after_concat]
    exact ih.step call

theorem reply_congr {b b' : CircuitBreaker} (h : Alike b b') {call : Call}
    (hstate : b'.stateOf call.provider = b.stateOf call.provider) :
    b'.reply call = b.reply call := by
  cases call with
  | record => rfl
  | allows p t =>
    have hopen : b'.isOpen p t ↔ b.isOpen p t := by
      unfold isOpen
      rw [h.enabled, show b'.stateOf p = b.stateOf p from hstate]
    rw [← allows_eq_false_iff, ← allows_eq_false_iff] at hopen
    have hanswer : (b'.allows p t).1 = (b.allows p t).1 := by
      cases hyes : (b.allows p t).1 with
      | false => exact hopen.2 hyes
      | true => exact Bool.eq_true_of_not_eq_false fun hno => by simp [hopen.1 hno] at hyes
    rw [reply, reply, hanswer]
  | view p t =>
    have hview (b : CircuitBreaker) : b.view p t =
        if !b.enabled then CircuitView.closed 0
        else match (b.stateOf p).openedUntil with
          | some u => if t < u then ⟨.open, 0, some ((u - t) / 10 ^ 6)⟩ else ⟨.halfOpen, 0, none⟩
          | none => if (b.stateOf p).halfOpen then ⟨.halfOpen, 0, none⟩
              else CircuitView.closed (b.stateOf p).failures := by
      unfold view stateOf
      cases b.states.get p <;> rfl
    rw [reply, reply, hview, hview, h.enabled, show b'.stateOf p = b.stateOf p from hstate]

/-- The outcome trips the provider's circuit: it opens it from now on. -/
def Trips (b : CircuitBreaker) (p : String) (ok : Bool) : Prop :=
  ok = false ∧ ((b.stateOf p).halfOpen = true ∨ b.threshold ≤ (b.stateOf p).failures + 1)

instance (b : CircuitBreaker) (p : String) (ok : Bool) : Decidable (b.Trips p ok) :=
  inferInstanceAs (Decidable (_ ∧ _))

/-! ### The lock -/

/-- A trip whose cooldown would end at a time that no `Instant` holds. -/
def overflows (b : CircuitBreaker) : Call → Prop
  | .record p ok t => b.enabled = true ∧ b.Trips p ok ∧ instantEnd ≤ t + b.openFor
  | _ => False

instance (b : CircuitBreaker) : (call : Call) → Decidable (b.overflows call)
  | .record _ _ _ => inferInstanceAs (Decidable (_ ∧ _))
  | .allows _ _ => inferInstanceAs (Decidable False)
  | .view _ _ => inferInstanceAs (Decidable False)

/-- A call on the shared breaker: an overflow panics with the lock held, and `none` is the lock it
has poisoned. -/
def lockStep (shared : Option CircuitBreaker) (call : Call) : Option CircuitBreaker :=
  shared.bind fun b => if b.overflows call then none else some (b.step call)

/-- The answer of a call, which a panic does not give. -/
def lockReply (shared : Option CircuitBreaker) (call : Call) : Option Reply :=
  shared.bind fun b => if b.overflows call then none else some (b.reply call)

/-- The shared breaker after a run. -/
def shared (b : CircuitBreaker) (calls : List Call) : Option CircuitBreaker :=
  calls.foldl lockStep (some b)

/-- The answer of a call after a run. -/
def answer (b : CircuitBreaker) (calls : List Call) (call : Call) : Option Reply :=
  lockReply (b.shared calls) call

/-- A cooldown from any recorded failure ends on the clock. -/
def Representable (b : CircuitBreaker) (calls : List Call) : Prop :=
  ∀ p t, .record p false t ∈ calls → t + b.openFor < instantEnd

theorem not_overflows {b : CircuitBreaker} {call : Call}
    (h : ∀ p t, call = .record p false t → t + b.openFor < instantEnd) : ¬ b.overflows call := by
  cases call with
  | record p ok t =>
    rintro ⟨-, ⟨rfl, -⟩, hend⟩
    exact absurd (h p t rfl) (Nat.not_lt.2 hend)
  | allows => exact id
  | view => exact id

/-- **No panic**: where every cooldown ends on the clock the lock is never poisoned. -/
theorem shared_eq {b : CircuitBreaker} {calls : List Call} (h : b.Representable calls) :
    b.shared calls = some (b.after calls) := by
  induction calls using List.reverseRec with
  | nil => rfl
  | append_singleton calls call ih =>
    have hprefix : calls.foldl lockStep (some b) = some (b.after calls) :=
      ih fun p t hmem => h p t (List.mem_append_left _ hmem)
    rw [shared, List.foldl_append, hprefix, after_concat]
    refine if_neg (not_overflows fun p t hcall => ?_)
    rw [(b.alike_after calls).openFor]
    exact h p t (List.mem_append_right _ (List.mem_singleton.2 hcall.symm))

theorem overflows_congr {b b' : CircuitBreaker} (h : Alike b b') {call : Call}
    (hstate : b'.stateOf call.provider = b.stateOf call.provider) :
    b'.overflows call ↔ b.overflows call := by
  cases call with
  | record p ok t =>
    have hown : b'.stateOf p = b.stateOf p := hstate
    show (b'.enabled = true ∧ b'.Trips p ok ∧ instantEnd ≤ t + b'.openFor) ↔
      (b.enabled = true ∧ b.Trips p ok ∧ instantEnd ≤ t + b.openFor)
    rw [Trips, Trips, h.enabled, h.threshold, h.openFor, hown]
  | allows => exact Iff.rfl
  | view => exact Iff.rfl

section Runs

variable {b : CircuitBreaker} (h : b.enabled = true)

include h

theorem enabled_after (calls : List Call) : (b.after calls).enabled = true :=
  (b.alike_after calls).enabled.trans h

/-- **Isolation of providers.** -/
theorem stateOf_after (p : String) (calls : List Call) :
    (b.after calls).stateOf p =
      (calls.filter fun call => call.provider = p).foldl b.stepState (b.stateOf p) := by
  refine Machine.foldl_cell Call.provider (fun q b => stateOf b q) (fun _ => b.stepState)
    (I := Alike b) ?_ ?_ ?_ p ⟨rfl, rfl, rfl⟩ calls
  · exact fun b' call hb => hb.step call
  · intro b' call hb
    rw [stateOf_step_own b' call (hb.enabled.trans h) rfl, hb.stepState_eq]
  · exact fun b' call q _ hq => stateOf_step_other b' call hq

theorem stateOf_after_concat {p : String} (calls : List Call) {call : Call}
    (hp : call.provider = p) :
    (b.after (calls ++ [call])).stateOf p = b.stepState ((b.after calls).stateOf p) call := by
  rw [after_concat, stateOf_step_own _ _ (enabled_after h calls) hp,
    (b.alike_after calls).stepState_eq]

theorem answer_filter {calls : List Call} (hcalls : b.Representable calls) (call : Call) :
    b.answer calls call = b.answer (calls.filter fun c => c.provider = call.provider) call := by
  have halike := b.alike_after calls
  have halike' := b.alike_after (calls.filter fun c => c.provider = call.provider)
  have hboth : Alike (b.after (calls.filter fun c => c.provider = call.provider))
      (b.after calls) :=
    ⟨halike.enabled.trans halike'.enabled.symm, halike.threshold.trans halike'.threshold.symm,
      halike.openFor.trans halike'.openFor.symm⟩
  have hstate : (b.after calls).stateOf call.provider =
      (b.after (calls.filter fun c => c.provider = call.provider)).stateOf call.provider := by
    rw [stateOf_after h, stateOf_after h, List.filter_filter]
    simp only [Bool.and_self]
  have hfilter : b.Representable (calls.filter fun c => c.provider = call.provider) :=
    fun p t hmem => hcalls p t (List.mem_of_mem_filter hmem)
  unfold answer lockReply
  rw [shared_eq hcalls, shared_eq hfilter, Option.bind_some, Option.bind_some,
    reply_congr hboth hstate]
  simp only [overflows_congr hboth hstate]

end Runs

/-! ### The failures a circuit counts -/

def countFailure (k : ℕ) (p : String) (n : ℕ) : Call → ℕ
  | .record q ok _ => if q = p then (if ok then 0 else if n + 1 = k then 0 else n + 1) else n
  | _ => n

/-- The failures of a provider since its last success or trip, a trip being every `k`-th. -/
def failuresSince (k : ℕ) (p : String) (calls : List Call) : ℕ := calls.foldl (countFailure k p) 0

theorem failuresSince_concat (k : ℕ) (p : String) (calls : List Call) (call : Call) :
    failuresSince k p (calls ++ [call]) = countFailure k p (failuresSince k p calls) call := by
  rw [failuresSince, List.foldl_append]
  rfl

theorem failuresSince_lt {k : ℕ} (hk : 1 ≤ k) (p : String) (calls : List Call) :
    failuresSince k p calls < k := by
  induction calls using List.reverseRec with
  | nil => exact hk
  | append_singleton calls call ih =>
    rw [failuresSince_concat]
    cases call with
    | record q ok t =>
      simp only [countFailure]
      split_ifs <;> omega
    | _ => exact ih

/-- The provider was never half-open. -/
def NeverHalfOpen (b : CircuitBreaker) (p : String) (calls : List Call) : Prop :=
  ∀ earlier, earlier <+: calls → ((b.after earlier).stateOf p).halfOpen = false

section Failures

variable {b : CircuitBreaker} (h : b.enabled = true) (hthr : 1 ≤ b.threshold) {p : String}
  (hp : b.stateOf p = {})

include h hthr hp

/-- **The counting invariant.** -/
theorem failures_after {calls : List Call} (hnever : b.NeverHalfOpen p calls) :
    ((b.after calls).stateOf p).failures = failuresSince b.threshold p calls := by
  induction calls using List.reverseRec with
  | nil => rw [after, List.foldl_nil, hp]; rfl
  | append_singleton calls call ih =>
    have hcount := ih fun earlier he => hnever earlier (he.trans (List.prefix_append _ _))
    have hhalf := hnever calls (List.prefix_append _ _)
    have hlt := failuresSince_lt hthr p calls
    rw [failuresSince_concat]
    by_cases hprovider : call.provider = p
    · rw [stateOf_after_concat h calls hprovider]
      cases call with
      | view q t => exact hcount
      | allows q t =>
        simp only [stepState, countFailure]
        split
        · split <;> exact hcount
        · exact hcount
      | record q ok t =>
        have hq : q = p := hprovider
        have htrip : failuresSince b.threshold p calls + 1 ≥ b.threshold ↔
            failuresSince b.threshold p calls + 1 = b.threshold := by omega
        simp only [stepState, recordState, countFailure, hq, if_true, hhalf, hcount, htrip]
        split_ifs <;> simp_all
    · rw [after_concat, stateOf_step_other _ _ (Ne.symm hprovider), hcount]
      cases call with
      | record q ok t => exact (if_neg hprovider).symm
      | _ => rfl

end Failures

/-- What a circuit that was never half-open does: it counts below the threshold, and it is seen to
open exactly at the failure in a row that reaches it, for the configured time. -/
structure CountsToTrip (b : CircuitBreaker) (p : String) (calls : List Call) : Prop where
  failures : ((b.after calls).stateOf p).failures = failuresSince b.threshold p calls
  failures_lt : ((b.after calls).stateOf p).failures < b.threshold
  /-- Only such a failure takes a closed circuit to an open one. -/
  opens_iff : ∀ call, ((b.after calls).view p call.now).state = .closed →
    (((b.after (calls ++ [call])).view p call.now).state = .open ↔
      ∃ t, call = .record p false t ∧ failuresSince b.threshold p calls + 1 = b.threshold)
  /-- And it is seen to be open until the cooldown is over. -/
  isOpen_until : ∀ t, failuresSince b.threshold p calls + 1 = b.threshold → ∀ t',
    ((b.after (calls ++ [.record p false t])).view p t').state = .open ↔ t' < t + b.openFor

theorem view_closed_iff {b : CircuitBreaker} (h : b.enabled = true) (p : String) (t : ℕ) :
    (b.view p t).state = .closed ↔
      (b.stateOf p).openedUntil = none ∧ (b.stateOf p).halfOpen = false := by
  unfold view stateOf
  rw [h]
  cases b.states.get p with
  | none => simp [CircuitView.closed]
  | some state =>
    cases hu : state.openedUntil with
    | none => cases hh : state.halfOpen <;> simp [CircuitView.closed, hu, hh]
    | some u => by_cases hlt : t < u <;> simp [hu, hlt]

theorem countsToTrip {b : CircuitBreaker} (h : b.enabled = true) (hthr : 1 ≤ b.threshold)
    (hopen : 0 < b.openFor) {p : String} (hp : b.stateOf p = {}) {calls : List Call} (hnever : b.NeverHalfOpen p calls) :
    CountsToTrip b p calls := by
  have hlt := failuresSince_lt hthr p calls
  have hcount := failures_after h hthr hp hnever
  have hhalf := hnever calls (List.prefix_refl _)
  have hrecord (t : ℕ) : (b.after (calls ++ [.record p false t])).stateOf p =
      if failuresSince b.threshold p calls + 1 = b.threshold then
        { (b.after calls).stateOf p with failures := 0, openedUntil := some (t + b.openFor) }
      else { (b.after calls).stateOf p with
        failures := failuresSince b.threshold p calls + 1 } := by
    have htrip : failuresSince b.threshold p calls + 1 ≥ b.threshold ↔
        failuresSince b.threshold p calls + 1 = b.threshold := by omega
    rw [stateOf_after_concat h calls (by rfl)]
    simp only [stepState, recordState, hhalf, hcount, htrip, Bool.false_eq_true,
      if_false]
  refine ⟨hcount, hcount ▸ hlt, ?_, ?_⟩
  · intro call hclosed
    obtain ⟨hnone, -⟩ := (view_closed_iff (enabled_after h calls) p _).1 hclosed
    constructor
    · intro hview
      obtain ⟨-, u, hu, -⟩ := (view_open_iff _ p _).1 hview
      have hopens : ((b.after (calls ++ [call])).stateOf p).openedUntil ≠ none := by
        rw [hu]
        exact Option.some_ne_none u
      by_cases hprovider : call.provider = p
      · rw [stateOf_after_concat h calls hprovider] at hopens
        cases call with
        | view q t => exact absurd hnone hopens
        | allows q t => simp [stepState, hnone] at hopens
        | record q ok t =>
          have hq : q = p := hprovider
          subst hq
          cases ok with
          | true => simp [stepState, recordState] at hopens
          | false =>
            refine ⟨t, rfl, ?_⟩
            by_contra htrip
            rw [← stateOf_after_concat h calls (by rfl), hrecord, if_neg htrip] at hopens
            exact hopens hnone
      · rw [after_concat, stateOf_step_other _ _ (Ne.symm hprovider)] at hopens
        exact absurd hnone hopens
    · rintro ⟨t, rfl, htrip⟩
      rw [view_open_iff, isOpen, hrecord, if_pos htrip]
      exact ⟨enabled_after h _, t + b.openFor, rfl, Nat.lt_add_of_pos_right hopen⟩
  · intro t htrip t'
    rw [view_open_iff, isOpen, hrecord, if_pos htrip]
    simp only [Option.some.injEq, exists_eq_left']
    exact and_iff_right (enabled_after h _)

/-- **The trip law.**  Where cooldowns last and end on the clock, no call of a run panics; a circuit
is seen to be open iff an attempt would be refused, and looking changes no later answer; a provider
that was never half-open is opened exactly at the threshold-th failure in a row; and no provider's
calls change the answers about another. -/
theorem trip_law {cfg : BreakerConfig} (h : cfg.enabled = true) (hopen : 1 ≤ cfg.openSecs)
    (calls : List Call) (hcalls : (new cfg).Representable calls) :
    (new cfg).shared calls = some ((new cfg).after calls) ∧
      (∀ p t, (((new cfg).after calls).view p t).state = .open ↔
        (((new cfg).after calls).allows p t).1 = false) ∧
      (∀ p t later call, (new cfg).answer (calls ++ .view p t :: later) call =
        (new cfg).answer (calls ++ later) call) ∧
      (∀ p, (new cfg).NeverHalfOpen p calls → CountsToTrip (new cfg) p calls) ∧
      ∀ call, (new cfg).answer calls call =
        (new cfg).answer (calls.filter fun c => c.provider = call.provider) call := by
  have hshared := shared_eq hcalls
  refine ⟨hshared, fun p t => ?_, fun p t later call => ?_, fun p hnever => ?_, fun call => ?_⟩
  · rw [view_open_iff, allows_eq_false_iff]
  · have hview : calls.foldl lockStep (some (new cfg)) = some ((new cfg).after calls) := hshared
    unfold answer shared
    rw [List.foldl_append, List.foldl_append, hview]
    rfl
  · exact countsToTrip h (le_max_right _ _) (secs_pos hopen) rfl hnever
  · exact answer_filter (b := new cfg) h hcalls call

/-- Two failures in a row, with a success between the first and them, open at a threshold of two. -/
theorem trip_law_two :
    CountsToTrip (new { enabled := true, failureThreshold := 2 }) "p"
      [.record "p" false 1, .record "p" true 2, .record "p" false 3] ∧
    failuresSince 2 "p" [.record "p" false 1, .record "p" true 2, .record "p" false 3] + 1 = 2 := by
  have hcalls : (new { enabled := true, failureThreshold := 2 }).Representable
      [.record "p" false 1, .record "p" true 2, .record "p" false 3] := by
    intro p t hmem
    have hlate : t ≤ 3 := by
      simp only [List.mem_cons, Call.record.injEq, List.not_mem_nil, or_false] at hmem
      omega
    have hend : 3 + (new { enabled := true, failureThreshold := 2 }).openFor < instantEnd := by
      decide
    omega
  refine ⟨(trip_law rfl (by decide) _ hcalls).2.2.2.1 "p" ?_, by decide⟩
  intro earlier hearlier
  have hinits : ∀ earlier ∈ ([.record "p" false 1, .record "p" true 2, .record "p" false 3] :
      List Call).inits, (((new { enabled := true, failureThreshold := 2 }).after earlier).stateOf
        "p").halfOpen = false := by decide +kernel
  exact hinits earlier ((List.mem_inits _ _).2 hearlier)

/-- With no cooldown the third failure is never seen to open, and a cooldown that does not end
leaves another provider without an answer. -/
theorem trip_law_unbounded :
    (¬ ∀ (cfg : BreakerConfig) (calls : List Call), cfg.enabled = true →
      Machine.Timely Call.now 0 calls → ∀ p, (new cfg).NeverHalfOpen p calls →
        CountsToTrip (new cfg) p calls) ∧
    ¬ ∀ (cfg : BreakerConfig) (calls : List Call), cfg.enabled = true →
      Machine.Timely Call.now 0 calls → ∀ call, (new cfg).answer calls call =
        (new cfg).answer (calls.filter fun c => c.provider = call.provider) call := by
  constructor
  · intro hall
    have hcounts := hall { enabled := true, failureThreshold := 1, openSecs := 0 } [] rfl
      (by decide) "p" fun earlier hearlier => by rw [List.prefix_nil.1 hearlier]; rfl
    have hopens := (hcounts.opens_iff (.record "p" false 0) rfl).2 ⟨0, rfl, rfl⟩
    exact absurd hopens (by decide +kernel)
  · intro hall
    have hanswer := hall { enabled := true, failureThreshold := 1, openSecs := 2 ^ 63 }
      [.record "q" false 0] rfl (by decide) (.allows "p" 1)
    exact absurd (congrArg Option.isSome hanswer) (by decide +kernel)

/-! ### Probes behind a trip -/

/-- A call that lets the provider be attempted at `u` or later. -/
def grants (b : CircuitBreaker) (p : String) (u : ℕ) : Call → Bool
  | .allows q t => q = p && u ≤ t && (b.allows q t).1
  | _ => false

/-- The attempts of a provider that a run lets through at `u` or later. -/
def granted (b : CircuitBreaker) (p : String) (u : ℕ) : List Call → ℕ
  | [] => 0
  | call :: calls => (b.grants p u call).toNat + (b.step call).granted p u calls

/-- **One probe**: behind a trip that opens a circuit until `u`, at most one attempt is let through
at `u` or later before an outcome is recorded. -/
def OneProbe (b : CircuitBreaker) (calls : List Call) : Prop :=
  ∀ before p ok t between rest, calls = before ++ .record p ok t :: (between ++ rest) →
    (b.after before).Trips p ok → (∀ call ∈ between, call.isRecord p = false) →
    (b.after (before ++ [.record p ok t])).granted p (t + b.openFor) between ≤ 1

/-- The circuit is half-open on the probe of its trip: no outcome was recorded since. -/
def Probing (b : CircuitBreaker) (p : String) : Prop :=
  (b.stateOf p).halfOpen = true ∧ (b.stateOf p).failures = 0

/-- The call asks for an attempt while the probe is out. -/
def asksWhileProbing (b : CircuitBreaker) : Call → Prop
  | .allows p _ => b.Probing p
  | _ => False

instance (b : CircuitBreaker) (p : String) : Decidable (b.Probing p) :=
  inferInstanceAs (Decidable (_ ∧ _))

instance (b : CircuitBreaker) : (call : Call) → Decidable (b.asksWhileProbing call)
  | .allows p _ => inferInstanceAs (Decidable (b.Probing p))
  | .record _ _ _ => inferInstanceAs (Decidable False)
  | .view _ _ => inferInstanceAs (Decidable False)

theorem granted_append (b : CircuitBreaker) (p : String) (u : ℕ) (a c : List Call) :
    b.granted p u (a ++ c) = b.granted p u a + (b.after a).granted p u c := by
  induction a generalizing b with
  | nil => simp [granted, after]
  | cons call a ih =>
    rw [List.cons_append, granted, granted, ih, Nat.add_assoc]
    rfl

section Probes

variable {b : CircuitBreaker} {p : String} {u : ℕ}

theorem grants_eq_true_iff {call : Call} :
    b.grants p u call = true ↔ ∃ t, call = .allows p t ∧ u ≤ t ∧ (b.allows p t).1 = true := by
  cases call with
  | allows q t =>
    simp only [grants, Bool.and_eq_true, decide_eq_true_eq, Call.allows.injEq]
    constructor
    · rintro ⟨⟨rfl, hle⟩, hyes⟩
      exact ⟨t, ⟨rfl, rfl⟩, hle, hyes⟩
    · rintro ⟨_, ⟨rfl, rfl⟩, hle, hyes⟩
      exact ⟨⟨rfl, hle⟩, hyes⟩
  | _ => simp [grants]

variable (h : b.enabled = true)

include h

/-- What a call that records nothing for the provider does to its state. -/
theorem stateOf_step_cases {call : Call} (hrecord : call.isRecord p = false) :
    (b.step call).stateOf p = b.stateOf p ∨
      ∃ t u', call = .allows p t ∧ (b.stateOf p).openedUntil = some u' ∧ u' ≤ t ∧
        (b.step call).stateOf p = { b.stateOf p with openedUntil := none, halfOpen := true } := by
  by_cases hprovider : call.provider = p
  · have hown := stateOf_step_own b call h hprovider
    cases call with
    | view => exact .inl rfl
    | record q ok t => simp [Call.isRecord, show q = p from hprovider] at hrecord
    | allows q t =>
      have hq : q = p := hprovider
      subst hq
      simp only [stepState] at hown
      split at hown
      · rename_i u' hu
        split at hown
        · exact .inl hown
        · exact .inr ⟨t, u', rfl, hu, by omega, hown⟩
      · exact .inl hown
  · exact .inl (stateOf_step_other b call (Ne.symm hprovider))

theorem granted_probing {calls : List Call} (hprobing : b.Probing p)
    (hnone : (b.stateOf p).openedUntil = none)
    (hrecords : ∀ call ∈ calls, call.isRecord p = false)
    (hasks : ∀ v ∈ Machine.visited step b calls, ¬ v.1.asksWhileProbing v.2) :
    b.granted p u calls = 0 := by
  induction calls generalizing b with
  | nil => rfl
  | cons call calls ih =>
    obtain ⟨hrecord, hrecords⟩ := List.forall_mem_cons.1 hrecords
    rw [Machine.visited, List.forall_mem_cons] at hasks
    have hgrants : b.grants p u call = false := by
      by_contra hyes
      obtain ⟨t, rfl, -, -⟩ := grants_eq_true_iff.1 (Bool.eq_true_of_not_eq_false hyes)
      exact hasks.1 hprobing
    have hstate : (b.step call).stateOf p = b.stateOf p := by
      obtain hsame | ⟨t, u', -, hopen, -, -⟩ := stateOf_step_cases h hrecord
      · exact hsame
      · rw [hnone] at hopen
        cases hopen
    rw [granted, hgrants, ih ((step_config b call).1.trans h) (by rwa [Probing, hstate])
      (by rwa [hstate]) hrecords hasks.2]
    rfl

/-- Behind a trip, if nobody asks while the probe is out, at most one attempt is let through. -/
theorem granted_open {calls : List Call} (hopen : (b.stateOf p).openedUntil = some u)
    (hfailures : (b.stateOf p).failures = 0)
    (hrecords : ∀ call ∈ calls, call.isRecord p = false)
    (hasks : ∀ v ∈ Machine.visited step b calls, ¬ v.1.asksWhileProbing v.2) :
    b.granted p u calls ≤ 1 := by
  induction calls generalizing b with
  | nil => exact Nat.zero_le 1
  | cons call calls ih =>
    obtain ⟨hrecord, hrecords⟩ := List.forall_mem_cons.1 hrecords
    rw [Machine.visited, List.forall_mem_cons] at hasks
    have henabled := (step_config b call).1.trans h
    rw [granted]
    obtain hsame | ⟨t, u', -, -, -, hstate⟩ := stateOf_step_cases h hrecord
    · have hgrants : b.grants p u call = false := by
        by_contra hyes
        obtain ⟨t, rfl, hle, -⟩ := grants_eq_true_iff.1 (Bool.eq_true_of_not_eq_false hyes)
        have hown : (b.step (.allows p t)).stateOf p =
            { b.stateOf p with openedUntil := none, halfOpen := true } := by
          rw [stateOf_step_own b (.allows p t) h (p := p) rfl]
          simp only [stepState, hopen]
          rw [if_neg (by omega)]
        have hclash := congrArg BreakerState.openedUntil (hsame.symm.trans hown)
        rw [hopen] at hclash
        cases hclash
      have hrest := ih henabled (by rwa [hsame]) (by rwa [hsame]) hrecords hasks.2
      rw [hgrants]
      simpa using hrest
    · have hprobing : (b.step call).Probing p := by simp [Probing, hstate, hfailures]
      have hrest := granted_probing (u := u) henabled hprobing (by rw [hstate]) hrecords hasks.2
      rw [hrest]
      exact Bool.toNat_le _

end Probes

section Traces

variable {b : CircuitBreaker} {p : String}

/-- A trip until `u` is behind the run, with no outcome and at least `n` grants since. -/
def TripBehind (b : CircuitBreaker) (p : String) (calls : List Call) (u n : ℕ) : Prop :=
  ∃ before t between, calls = before ++ .record p false t :: between ∧
    (b.after before).Trips p false ∧ u = t + b.openFor ∧
    (∀ call ∈ between, call.isRecord p = false) ∧
    n ≤ (b.after (before ++ [.record p false t])).granted p u between

theorem TripBehind.concat {calls : List Call} {u n m : ℕ} (h : TripBehind b p calls u n)
    {call : Call} (hrecord : call.isRecord p = false)
    (hm : m ≤ n + ((b.after calls).grants p u call).toNat) :
    TripBehind b p (calls ++ [call]) u m := by
  obtain ⟨before, t, between, rfl, htrips, hu, hrecords, hn⟩ := h
  refine ⟨before, t, between ++ [call], by simp, htrips, hu, ?_, ?_⟩
  · exact List.forall_mem_append.2 ⟨hrecords, List.forall_mem_singleton.2 hrecord⟩
  · have hsplit : before ++ .record p false t :: between =
        (before ++ [.record p false t]) ++ between := by simp
    rw [hsplit, after_append] at hm
    rw [granted_append, granted, granted]
    omega

theorem recordState_halfOpen (b : CircuitBreaker) (state : BreakerState) (ok : Bool) (t : ℕ) :
    (b.recordState state ok t).halfOpen = false := by
  unfold recordState
  split_ifs with hok hhalf hthr
  · rfl
  · rfl
  · simpa using hhalf
  · simpa using hhalf

theorem openedUntil_of_halfOpen (h : b.enabled = true) (hp : b.stateOf p = {})
    (calls : List Call) (hhalf : ((b.after calls).stateOf p).halfOpen = true) :
    ((b.after calls).stateOf p).openedUntil = none := by
  induction calls using List.reverseRec with
  | nil => rw [after, List.foldl_nil, hp]
  | append_singleton calls call ih =>
    cases hrecord : call.isRecord p with
    | false =>
      rw [after_concat] at hhalf ⊢
      obtain hsame | ⟨t, u, -, -, -, hstate⟩ :=
        stateOf_step_cases (enabled_after h calls) hrecord
      · rw [hsame] at hhalf ⊢
        exact ih hhalf
      · rw [hstate]
    | true =>
      cases call with
      | record q ok t =>
        have hq : q = p := by simpa [Call.isRecord] using hrecord
        have hcall : (Call.record q ok t).provider = p := hq
        rw [stateOf_after_concat h calls hcall] at hhalf
        exact absurd hhalf (by simp [stepState, recordState_halfOpen])
      | _ => cases hrecord

theorem recordState_opens {state : BreakerState} {ok : Bool} {t u : ℕ}
    (hopen : (b.recordState state ok t).openedUntil = some u)
    (hfailures : (b.recordState state ok t).failures = 0) :
    ok = false ∧ (state.halfOpen = true ∨ b.threshold ≤ state.failures + 1) ∧
      u = t + b.openFor := by
  unfold recordState at hopen hfailures
  split_ifs at hopen hfailures with hok hhalf hthr
  · exact ⟨by simpa using hok, .inl hhalf, (Option.some.inj hopen).symm⟩
  · exact ⟨by simpa using hok, .inr hthr, (Option.some.inj hopen).symm⟩

/-- What a run says of the state it leaves: an open circuit that counts no failure has its trip
behind it, and a probe that is out was granted behind its trip. -/
structure Explained (b : CircuitBreaker) (p : String) (calls : List Call) : Prop where
  openedUntil : ∀ u, ((b.after calls).stateOf p).openedUntil = some u →
    ((b.after calls).stateOf p).failures = 0 → TripBehind b p calls u 0
  probing : (b.after calls).Probing p →
    ∃ u, TripBehind b p calls u 1 ∧ ∃ call ∈ calls, u ≤ call.now

theorem Explained.of_same {calls : List Call} (he : Explained b p calls) {call : Call}
    (hrecord : call.isRecord p = false)
    (hsame : (b.after (calls ++ [call])).stateOf p = (b.after calls).stateOf p) :
    Explained b p (calls ++ [call]) := by
  constructor
  · intro u hopen hfailures
    rw [hsame] at hopen hfailures
    exact (he.openedUntil u hopen hfailures).concat hrecord (Nat.zero_le _)
  · intro hprobing
    rw [Probing, hsame] at hprobing
    obtain ⟨u, hbehind, c, hc, hle⟩ := he.probing hprobing
    exact ⟨u, hbehind.concat hrecord (Nat.le_add_right _ _), c, List.mem_append_left _ hc, hle⟩

theorem explained_after (h : b.enabled = true) (hp : b.stateOf p = {}) (calls : List Call) :
    Explained b p calls := by
  induction calls using List.reverseRec with
  | nil =>
    constructor
    · intro u hopen
      rw [after, List.foldl_nil, hp] at hopen
      cases hopen
    · intro hprobing
      rw [Probing, after, List.foldl_nil, hp] at hprobing
      cases hprobing.1
  | append_singleton calls call ih =>
    have henabled := enabled_after h calls
    cases hrecord : call.isRecord p with
    | false =>
      obtain hsame | ⟨t, u, rfl, hopen, hle, hstate⟩ :=
        stateOf_step_cases henabled hrecord
      · exact ih.of_same hrecord (by rw [after_concat, hsame])
      · -- the cooldown is over: this call is the probe
        rw [← after_concat] at hstate
        constructor
        · intro u' hopen'
          rw [hstate] at hopen'
          cases hopen'
        · rintro ⟨-, hfailures⟩
          rw [hstate] at hfailures
          refine ⟨u, (ih.openedUntil u hopen hfailures).concat hrecord ?_, .allows p t,
            List.mem_append_right _ (List.mem_singleton_self _), hle⟩
          have hgrants : (b.after calls).grants p u (.allows p t) = true := by
            refine grants_eq_true_iff.2 ⟨t, rfl, hle, Bool.eq_true_of_not_eq_false fun hno => ?_⟩
            obtain ⟨-, u', hu', hlt⟩ := (allows_eq_false_iff _ p t).1 hno
            rw [hopen] at hu'
            cases hu'
            omega
          rw [hgrants]
          decide
    | true =>
      cases call with
      | record q ok t =>
        have hq : q = p := by simpa [Call.isRecord] using hrecord
        subst hq
        have hstate : (b.after (calls ++ [.record q ok t])).stateOf q =
            b.recordState ((b.after calls).stateOf q) ok t := stateOf_after_concat h calls rfl
        have hthreshold := (b.alike_after calls).threshold
        have hhalf := recordState_halfOpen b ((b.after calls).stateOf q) ok t
        constructor
        · intro u hopen hfailures
          rw [hstate] at hopen hfailures
          obtain ⟨rfl, htrips, rfl⟩ := recordState_opens hopen hfailures
          refine ⟨calls, t, [], rfl, ⟨rfl, ?_⟩, rfl, List.forall_mem_nil _, Nat.zero_le _⟩
          rwa [hthreshold]
        · rintro ⟨hprobing, -⟩
          rw [hstate, hhalf] at hprobing
          cases hprobing
      | _ => cases hrecord

end Traces

/-- The trip itself leaves the circuit open and counts no failure. -/
theorem Trips.stateOf {b : CircuitBreaker} (h : b.enabled = true) {p : String} {ok : Bool}
    (htrips : b.Trips p ok) (t : ℕ) :
    ((b.step (.record p ok t)).stateOf p).openedUntil = some (t + b.openFor) ∧
      ((b.step (.record p ok t)).stateOf p).failures = 0 := by
  obtain ⟨rfl, hcause⟩ := htrips
  rw [stateOf_step_own b _ h (p := p) rfl]
  simp only [stepState, recordState, Bool.false_eq_true, if_false]
  rcases hcause with hhalf | hthr
  · simp [hhalf]
  · split_ifs <;> simp

/-- **When a trip is probed once**: iff no attempt is asked for while the probe of a trip is out,
half-open and without an outcome since. -/
theorem oneProbe_iff {cfg : BreakerConfig} (h : cfg.enabled = true) {calls : List Call}
    (htime : Machine.Timely Call.now 0 calls) :
    (new cfg).OneProbe calls ↔
      ∀ v ∈ Machine.visited step (new cfg) calls, ¬ v.1.asksWhileProbing v.2 := by
  constructor
  · rintro hone ⟨b, call⟩ hv hasks
    obtain ⟨calls', rest, rfl, rfl⟩ := Machine.exists_split_of_mem_visited hv
    cases call with
    | allows p t =>
      obtain ⟨u, ⟨before, t', between, rfl, htrips, rfl, hrecords, hgranted⟩, c, hc, hle⟩ :=
        (explained_after (b := new cfg) h rfl calls').probing hasks
      have hlate : t' + (new cfg).openFor ≤ t := by
        refine hle.trans ?_
        have hpairs := (List.pairwise_cons.1 htime).2
        rw [List.map_append, List.map_cons, List.pairwise_append] at hpairs
        exact hpairs.2.2 _ (List.mem_map_of_mem hc) _ List.mem_cons_self
      have hbound := hone before p false t' (between ++ [.allows p t]) rest (by simp) htrips
        (List.forall_mem_append.2 ⟨hrecords, List.forall_mem_singleton.2 rfl⟩)
      -- the circuit is not open any more, so the call is let through as well
      have hgrants : (((new cfg).after (before ++ [.record p false t'])).after between).grants p
          (t' + (new cfg).openFor) (.allows p t) = true := by
        refine grants_eq_true_iff.2 ⟨t, rfl, hlate, Bool.eq_true_of_not_eq_false fun hno => ?_⟩
        obtain ⟨-, u, hu, -⟩ := (allows_eq_false_iff _ p t).1 hno
        have hnone := openedUntil_of_halfOpen (b := new cfg) h (p := p) rfl _ hasks.1
        rw [← after_append, List.append_assoc, List.singleton_append, hnone] at hu
        cases hu
      rw [granted_append, granted, hgrants, granted] at hbound
      simp only [Bool.toNat_true] at hbound
      omega
    | _ => exact hasks
  · intro hasks before p ok t between rest hcalls htrips hrecords
    have henabled := enabled_after (b := new cfg) h before
    obtain ⟨hopen, hfailures⟩ := htrips.stateOf henabled t
    rw [← after_concat, (alike_after _ before).openFor] at hopen
    rw [← after_concat] at hfailures
    refine granted_open (enabled_after (b := new cfg) h _) hopen hfailures hrecords ?_
    intro v hv
    refine hasks v ?_
    have hsplit : calls = (before ++ [.record p ok t]) ++ (between ++ rest) := by simp [hcalls]
    rw [hsplit, Machine.visited_append]
    refine List.mem_append_right _ ?_
    rw [Machine.visited_append]
    exact List.mem_append_left _ hv

/-- A trip, its probe, the probe's outcome, and only then another attempt. -/
theorem oneProbe_of_outcomes :
    (new { enabled := true, failureThreshold := 1, openSecs := 30 }).OneProbe
      [.record "p" false 0, .allows "p" (secs 30), .record "p" true (secs 31),
        .allows "p" (secs 31), .allows "p" (secs 32)] := by
  have hasks : ∀ v ∈ Machine.visited step
      (new { enabled := true, failureThreshold := 1, openSecs := 30 })
      [.record "p" false 0, .allows "p" (secs 30), .record "p" true (secs 31),
        .allows "p" (secs 31), .allows "p" (secs 32)], ¬ v.1.asksWhileProbing v.2 := by
    decide +kernel
  exact (oneProbe_iff rfl (by decide)).2 hasks

/-- Two requests ask when the cooldown is over, and both are let through. -/
theorem not_oneProbe_of_two_requests :
    Machine.Timely Call.now 0
        [.record "p" false 0, .allows "p" (secs 30), .allows "p" (secs 30)] ∧
      ¬ (new { enabled := true, failureThreshold := 1, openSecs := 30 }).OneProbe
        [.record "p" false 0, .allows "p" (secs 30), .allows "p" (secs 30)] := by
  refine ⟨by decide, fun hone => ?_⟩
  have hbound := hone [] "p" false 0 [.allows "p" (secs 30), .allows "p" (secs 30)] [] rfl
    ⟨rfl, .inr (by decide)⟩ (by decide)
  exact absurd hbound (by decide +kernel)

end CircuitBreaker

end Switchback
