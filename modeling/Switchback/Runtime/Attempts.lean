import Mathlib.Data.List.Perm.Basic
import Switchback.Runtime.Moves

/-!
# Every attempt is finalised once

Each adapter call starts an attempt, and each attempt ends with one call of `finish_attempt`.
-/

namespace Switchback

open Lib

/-- The target and the account that an attempt is made with. -/
abbrev AttemptKey := ExecutionTarget × String

namespace Effect

/-- The attempt that an adapter call starts. -/
def started : Effect → Option AttemptKey
  | .dispatch d => some (d.target, d.accountId)
  | _ => none

/-- The attempt that is finalised. -/
def finished : Effect → Option AttemptKey
  | .finishAttempt target accountId _ => some (target, accountId)
  | _ => none

end Effect

/-- How often an attempt is started. -/
def startedCount (k : AttemptKey) (effects : List Effect) : ℕ :=
  (effects.filterMap Effect.started).count k

/-- How often an attempt is finalised. -/
def finishedCount (k : AttemptKey) (effects : List Effect) : ℕ :=
  (effects.filterMap Effect.finished).count k

/-! ### Attempts in flight -/

def Racer.inFlight (racer : Racer) : List AttemptKey :=
  match racer.phase with
  | .executing accountId _ | .collecting accountId => [(racer.target, accountId)]
  | _ => []

def Attempt.key (a : Attempt) : AttemptKey := (a.work.target, a.accountId)

def Phase.inFlight : Phase → List AttemptKey
  | .racing _ racers => racers.flatMap Racer.inFlight
  | .executing a | .precommitting a | .collecting a | .streaming a _ => [a.key]
  | _ => []

section Balance

variable {c : Call} {r : CredentialResolver} {e : Event} {i : ℕ} (k : AttemptKey)

@[simp] theorem startedCount_nil : startedCount k [] = 0 := rfl

@[simp] theorem finishedCount_nil : finishedCount k [] = 0 := rfl

@[simp] theorem startedCount_cons (o : Effect) (effects : List Effect) :
    startedCount k (o :: effects) = o.started.toList.count k + startedCount k effects := by
  unfold startedCount
  cases ho : o.started with
  | none => simp [List.filterMap_cons_none ho]
  | some k' => simp [List.filterMap_cons_some ho, List.count_cons, Nat.add_comm]

@[simp] theorem finishedCount_cons (o : Effect) (effects : List Effect) :
    finishedCount k (o :: effects) = o.finished.toList.count k + finishedCount k effects := by
  unfold finishedCount
  cases ho : o.finished with
  | none => simp [List.filterMap_cons_none ho]
  | some k' => simp [List.filterMap_cons_some ho, List.count_cons, Nat.add_comm]

@[simp] theorem startedCount_append (a b : List Effect) :
    startedCount k (a ++ b) = startedCount k a + startedCount k b := by
  simp [startedCount, List.count_append]

@[simp] theorem finishedCount_append (a b : List Effect) :
    finishedCount k (a ++ b) = finishedCount k a + finishedCount k b := by
  simp [finishedCount, List.count_append]

theorem cancelRacer_counts (racers : List Racer) :
    startedCount k (racers.flatMap cancelRacer) = 0 ∧
      finishedCount k (racers.flatMap cancelRacer) =
        (racers.flatMap Racer.inFlight).count k := by
  induction racers with
  | nil => exact ⟨rfl, rfl⟩
  | cons racer racers ih =>
    obtain ⟨hstarted, hfinished⟩ := ih
    have hracer : startedCount k (cancelRacer racer) = 0 ∧
        finishedCount k (cancelRacer racer) = racer.inFlight.count k := by
      unfold cancelRacer Racer.inFlight
      cases racer.phase <;> simp [Effect.started, Effect.finished]
    rw [List.flatMap_cons, List.flatMap_cons, startedCount_append, finishedCount_append,
      List.count_append, hstarted, hfinished, hracer.1, hracer.2]
    exact ⟨rfl, rfl⟩

variable {racer : Racer}

theorem inFlight_count_of_getElem {racers : List Racer} (h : racers[i]? = some racer) :
    (racers.flatMap Racer.inFlight).count k =
      racer.inFlight.count k + ((racers.eraseIdx i).flatMap Racer.inFlight).count k := by
  obtain ⟨hlt, rfl⟩ := List.getElem?_eq_some_iff.1 h
  have hperm := (List.getElem_cons_eraseIdx_perm hlt).flatMap_right Racer.inFlight
  rw [← hperm.count_eq k, List.flatMap_cons, List.count_append]

theorem inFlight_count_set {racers : List Racer} (h : racers[i]? = some racer) (racer' : Racer) :
    ((racers.set i racer').flatMap Racer.inFlight).count k =
      racer'.inFlight.count k + ((racers.eraseIdx i).flatMap Racer.inFlight).count k := by
  obtain ⟨hlt, -⟩ := List.getElem?_eq_some_iff.1 h
  have hperm := (List.set_perm_cons_eraseIdx hlt racer').flatMap_right Racer.inFlight
  rw [hperm.count_eq k, List.flatMap_cons, List.count_append]

theorem racePhase_inFlight (startedAt : ℕ) (racers : List Racer) :
    (racePhase c startedAt racers).inFlight = racers.flatMap Racer.inFlight := by
  unfold racePhase
  split_ifs with hlost
  · symm
    refine List.flatMap_eq_nil_iff.2 fun racer hmem => ?_
    have hphase : racer.phase = .lost := by simpa using List.all_eq_true.1 hlost racer hmem
    unfold Racer.inFlight
    rw [hphase]
  · rfl

theorem RacerMove.balanced {answer : Answer} {phase : RacerPhase}
    {effects : List Effect} (h : RacerMove c r e racer answer phase effects) :
    racer.inFlight.count k + startedCount k effects =
      ({ racer with phase := phase } : Racer).inFlight.count k + finishedCount k effects := by
  cases h with
  | stay answer => rfl
  | resolve h accountId lease => simp [Racer.inFlight, h]
  | unresolved h => simp [Racer.inFlight, h]
  | unleased h mint => simp [Racer.inFlight, h]
  | call h mint lease' =>
    simp [Racer.inFlight, h, dispatch, Effect.started, Effect.finished]
  | answered h => simp [Racer.inFlight, h]
  | failed h error =>
    simp [Racer.inFlight, h, Effect.started, Effect.finished]
  | uncollected h usage hcollect =>
    simp [Racer.inFlight, h, Effect.started, Effect.finished]

/-- **One move**: what was in flight and is started makes up what is in flight and what was
finalised. -/
theorem ExecMove.balanced {phase phase' : Phase} {answer : Answer} {effects : List Effect}
    (h : ExecMove c r e i phase answer phase' effects) :
    phase.inFlight.count k + startedCount k effects =
      phase'.inFlight.count k + finishedCount k effects := by
  -- a failed attempt was in flight
  have hfails {a : Attempt} {error : AdapterError} (h : Fails c phase answer a error) :
      phase.inFlight = [a.key] := by
    cases h <;> rfl
  cases h with
  | enter answer startedAt =>
    split_ifs
    · have hnone : (c.raced.map fun target => ({ target := target } : Racer)).flatMap
          Racer.inFlight = [] := by
        simp [List.flatMap_map, Racer.inFlight]
      simp [Phase.inFlight, hnone]
    · rfl
  | race startedAt h hmove =>
    have hracer := hmove.balanced k
    rw [racePhase_inFlight, inFlight_count_set k h, Phase.inFlight, inFlight_count_of_getElem k h]
    omega
  | win startedAt h hphase usage hcollect =>
    rename_i racers racer accountId items response
    obtain ⟨hstarted, hfinished⟩ := cancelRacer_counts k (racers.eraseIdx i)
    have hwin : startedCount k (winOutcome racer.target accountId response usage).2 = 0 ∧
        finishedCount k (winOutcome racer.target accountId response usage).2 = 0 := by
      unfold winOutcome
      split <;> exact ⟨rfl, rfl⟩
    have hracer : racer.inFlight = [(racer.target, accountId)] := by
      unfold Racer.inFlight
      rw [hphase]
    show (racers.flatMap Racer.inFlight).count k + _ = ([] : List AttemptKey).count k + _
    rw [inFlight_count_of_getElem k h, hracer]
    simp [hstarted, hfinished, hwin.1, hwin.2, Effect.started, Effect.finished]
  | fallOver h hfallback =>
    rw [hfails h]
    simp [Effect.started, Effect.finished, Phase.inFlight, Attempt.key]
  | fail h hfallback =>
    rw [hfails h]
    simp [Effect.started, Effect.finished, Phase.inFlight, Attempt.key]
  | answered a => split_ifs <;> rfl
  | _ => simp [Effect.started, Effect.finished, Phase.inFlight, Attempt.key, dispatch]

end Balance

/-! ### What settles an attempt -/

/-- The answer ends an attempt in flight with this outcome.  An error of the upstream fails it,
before the first event or later; a completed response makes it succeed; it is cancelled only when
the client drops the stream, or when another racer wins. -/
inductive Settles (c : Call) (i : ℕ) : Phase → Answer → AttemptKey → FinishOutcome → Prop where
  | executed (a : Attempt) (error : AdapterError) :
      Settles c i (.executing a) (.executed (.error error)) a.key (.failed error.errorClass)
  | firstEvent (a : Attempt) (item : Option StreamItem) (error : AdapterError)
      (h : precommitStream item = .error error) :
      Settles c i (.precommitting a) (.firstEvent item) a.key (.failed error.errorClass)
  | uncollected (a : Attempt) (items : List StreamItem) (usage : Except String Unit)
      (error : AdapterError)
      (h : collectResponse c.fromStr items c.req.id c.req.model c.snap.maxResponseBytes =
        .error error) :
      Settles c i (.collecting a) (.collected items usage) a.key (.failed error.errorClass)
  | collected (a : Attempt) (items : List StreamItem) (usage : Except String Unit)
      (response : AiResponse)
      (h : collectResponse c.fromStr items c.req.id c.req.model c.snap.maxResponseBytes =
        .ok response) :
      Settles c i (.collecting a) (.collected items usage) a.key (.ok response.finishReason)
  | streamError (a : Attempt) (guard : FinishGuard) (item : Option StreamItem)
      (errorClass : ErrorClass) (h : itemError (guard.next item) = some errorClass) :
      Settles c i (.streaming a guard) (.delivered item) a.key (.failed errorClass)
  | streamEnd (a : Attempt) (guard : FinishGuard) (item : Option StreamItem)
      (h : guard.next item = none) :
      Settles c i (.streaming a guard) (.delivered item) a.key
        (.ok (guard.finishReason.getD .stop))
  | dropped (a : Attempt) (guard : FinishGuard) :
      Settles c i (.streaming a guard) .dropped a.key .cancelled
  | racerFailed (startedAt : ℕ) {racers : List Racer} {racer : Racer} {accountId : String}
      {lease : CredentialLease} (h : racers[i]? = some racer)
      (hphase : racer.phase = .executing accountId lease) (error : AdapterError) :
      Settles c i (.racing startedAt racers) (.executed (.error error)) (racer.target, accountId)
        (.failed error.errorClass)
  | racerUncollected (startedAt : ℕ) {racers : List Racer} {racer : Racer} {accountId : String}
      (h : racers[i]? = some racer) (hphase : racer.phase = .collecting accountId)
      {items : List StreamItem} (usage : Except String Unit) {error : AdapterError}
      (hcollect : collectResponse c.fromStr items c.req.id c.req.model c.snap.maxResponseBytes =
        .error error) :
      Settles c i (.racing startedAt racers) (.collected items usage) (racer.target, accountId)
        (.failed error.errorClass)
  | racerWon (startedAt : ℕ) {racers : List Racer} {racer : Racer} {accountId : String}
      (h : racers[i]? = some racer) (hphase : racer.phase = .collecting accountId)
      {items : List StreamItem} (usage : Except String Unit) {response : AiResponse}
      (hcollect : collectResponse c.fromStr items c.req.id c.req.model c.snap.maxResponseBytes =
        .ok response) :
      Settles c i (.racing startedAt racers) (.collected items usage) (racer.target, accountId)
        (.ok response.finishReason)
  | racerLost (startedAt : ℕ) {racers : List Racer} {winner loser : Racer} {accountId : String}
      (h : racers[i]? = some winner) (hphase : winner.phase = .collecting accountId)
      {items : List StreamItem} (usage : Except String Unit) {response : AiResponse}
      (hcollect : collectResponse c.fromStr items c.req.id c.req.model c.snap.maxResponseBytes =
        .ok response) (hloser : loser ∈ racers.eraseIdx i) {k : AttemptKey}
      (hflight : k ∈ loser.inFlight) :
      Settles c i (.racing startedAt racers) (.collected items usage) k .cancelled

variable {accountId : String} {outcome : FinishOutcome} {target : ExecutionTarget}

theorem mem_cancelRacer {racer : Racer}
    (h : .finishAttempt target accountId outcome ∈ cancelRacer racer) :
    (target, accountId) ∈ racer.inFlight ∧ outcome = .cancelled := by
  unfold cancelRacer at h
  unfold Racer.inFlight
  cases hphase : racer.phase <;> simp_all

theorem Fails.settles {c : Call} {i : ℕ} {phase : Phase} {answer : Answer} {a : Attempt}
    {error : AdapterError} (h : Fails c phase answer a error) :
    Settles c i phase answer a.key (.failed error.errorClass) := by
  cases h with
  | executed a error h => exact .executed a error
  | firstEvent a item error h => exact .firstEvent a item error h
  | collected a items usage error h => exact .uncollected a items usage error h

/-- The only attempt that is finalised. -/
theorem finishAttempt_mem_cons {target' : ExecutionTarget} {accountId' : String}
    {outcome' : FinishOutcome} {effects : List Effect}
    (h : .finishAttempt target accountId outcome ∈
      .finishAttempt target' accountId' outcome' :: effects)
    (hrest : effects.filterMap Effect.finished = []) :
    target = target' ∧ accountId = accountId' ∧ outcome = outcome' := by
  rcases List.mem_cons.1 h with h | h
  · cases h
    exact ⟨rfl, rfl, rfl⟩
  · have hnone := List.filterMap_eq_nil_iff.1 hrest _ h
    cases hnone

/-- **One move**: an attempt that is finalised was in flight and its answer settles it so. -/
theorem ExecMove.settles {c : Call} {r : CredentialResolver} {e : Event} {i : ℕ}
    {phase phase' : Phase} {answer : Answer} {effects : List Effect}
    (h : ExecMove c r e i phase answer phase' effects)
    (hmem : .finishAttempt target accountId outcome ∈ effects) :
    Settles c i phase answer (target, accountId) outcome := by
  cases h with
  | race startedAt h hmove =>
    cases hmove with
    | failed hphase error =>
      obtain ⟨rfl, rfl, rfl⟩ := finishAttempt_mem_cons hmem rfl
      exact .racerFailed startedAt h hphase error
    | uncollected hphase usage hcollect =>
      obtain ⟨rfl, rfl, rfl⟩ := finishAttempt_mem_cons hmem rfl
      exact .racerUncollected startedAt h hphase usage hcollect
    | call hphase mint lease' => simp [dispatch] at hmem
    | _ => simp at hmem
  | win startedAt h hphase usage hcollect =>
    rw [List.mem_append, List.mem_append] at hmem
    rcases hmem with (hmem | hmem) | hmem
    · obtain ⟨rfl, rfl, rfl⟩ := finishAttempt_mem_cons hmem rfl
      exact .racerWon startedAt h hphase usage hcollect
    · obtain ⟨loser, hloser, hmem⟩ := List.mem_flatMap.1 hmem
      obtain ⟨hflight, rfl⟩ := mem_cancelRacer hmem
      exact .racerLost startedAt h hphase usage hcollect hloser hflight
    · unfold winOutcome at hmem
      split at hmem <;> simp at hmem
  | retry a error until_ hleft hretryable =>
    obtain ⟨rfl, rfl, rfl⟩ := finishAttempt_mem_cons hmem rfl
    exact .executed a error
  | fallOver h hfallback =>
    obtain ⟨rfl, rfl, rfl⟩ := finishAttempt_mem_cons hmem rfl
    exact h.settles
  | fail h hfallback =>
    obtain ⟨rfl, rfl, rfl⟩ := finishAttempt_mem_cons hmem rfl
    exact h.settles
  | collect a h =>
    obtain ⟨rfl, rfl, rfl⟩ := finishAttempt_mem_cons hmem rfl
    exact .collected a _ _ _ h
  | unrecorded a h message error =>
    obtain ⟨rfl, rfl, rfl⟩ := finishAttempt_mem_cons hmem rfl
    exact .collected a _ _ _ h
  | streamFail a guard item h =>
    obtain ⟨rfl, rfl, rfl⟩ := finishAttempt_mem_cons hmem rfl
    exact .streamError a guard item _ h
  | streamEnd a guard item usage h =>
    obtain ⟨rfl, rfl, rfl⟩ := finishAttempt_mem_cons hmem rfl
    exact .streamEnd a guard item h
  | drop a guard =>
    obtain ⟨rfl, rfl, rfl⟩ := finishAttempt_mem_cons hmem rfl
    exact .dropped a guard
  | call work accountId lease lease' mint => simp [dispatch] at hmem
  | redispatch a until_ => simp [dispatch] at hmem
  | _ => simp at hmem

section

variable {c : Call} {s : ExecState} {e : Event} {i : ℕ} {answer : Answer}

theorem finish_mem_attemptFailed (a : Attempt) (error : AdapterError) (now : ℕ) :
    .finishAttempt a.work.target a.accountId (.failed error.errorClass) ∈
      (attemptFailed c s a error now).2 := by
  unfold attemptFailed failAttempt
  dsimp only
  split <;> simp

variable {outcome : FinishOutcome}

theorem finish_mem_deliver {a : Attempt} {guard : FinishGuard} {item : Option StreamItem} (now : ℕ)
    (h : (itemError item).map FinishOutcome.failed = some outcome ∨
      item = none ∧ outcome = .ok (guard.finishReason.getD .stop)) :
    .finishAttempt a.work.target a.accountId outcome ∈ (deliver s a guard now item).2 := by
  rcases h with h | ⟨rfl, rfl⟩
  · obtain ⟨errorClass, herror, rfl⟩ := Option.map_eq_some_iff.1 h
    cases item with
    | none => cases herror
    | some item =>
      cases item with
      | error error =>
        cases herror
        exact List.mem_cons_self
      | ok event =>
        cases event with
        | error message errorClass' =>
          cases herror
          exact List.mem_cons_self
        | _ => cases herror
  · exact List.mem_cons_self

theorem finish_mem_streamStep {a : Attempt} {guard : FinishGuard} {item : Option StreamItem}
    (now : ℕ)
    (h : (itemError (guard.next item)).map FinishOutcome.failed = some outcome ∨
      guard.next item = none ∧ outcome = .ok (guard.finishReason.getD .stop)) :
    .finishAttempt a.work.target a.accountId outcome ∈
      (streamStep s a guard now (.delivered item)).2 := by
  unfold streamStep
  dsimp only
  unfold FinishGuard.next at h
  split
  · next event hfirst =>
    rw [hfirst] at h
    exact finish_mem_deliver now h
  · next hfirst =>
    rw [hfirst] at h
    exact finish_mem_deliver now h

theorem finish_mem_cancelRacer {racer : Racer} {k : AttemptKey} (h : k ∈ racer.inFlight) :
    .finishAttempt k.1 k.2 .cancelled ∈ cancelRacer racer := by
  unfold Racer.inFlight at h
  unfold cancelRacer
  cases hphase : racer.phase <;> simp_all

theorem raceStep_won {startedAt : ℕ} {racers : List Racer} {racer : Racer} {accountId : String}
    {items : List StreamItem} {usage : Except String Unit} {response : AiResponse}
    (h : racers[i]? = some racer) (hphase : racer.phase = .collecting accountId)
    (hcollect : collectResponse c.fromStr items c.req.id c.req.model c.snap.maxResponseBytes =
      .ok response) :
    (raceStep c s startedAt racers e i (.collected items usage)).1.phase =
        .done (winOutcome racer.target accountId response usage).1 ∧
      (raceStep c s startedAt racers e i (.collected items usage)).2 =
        [.finishAttempt racer.target accountId (.ok response.finishReason)] ++
          (racers.eraseIdx i).flatMap cancelRacer ++
          (winOutcome racer.target accountId response usage).2 := by
  unfold raceStep
  rw [h]
  dsimp only
  unfold racerStep
  rw [hphase]
  dsimp only
  rw [hcollect]
  exact ⟨rfl, rfl⟩

/-- **An attempt in flight that its answer settles is finalised so.** -/
theorem Settles.finishes {k : AttemptKey}
    (h : Settles c i s.phase answer k outcome) (he : e.input = .own i answer) :
    .finishAttempt k.1 k.2 outcome ∈ (step c s e).2 := by
  unfold step
  rw [he]
  dsimp only
  generalize hs : s.phase = phase at h ⊢
  cases h with
  | executed a error =>
    unfold sequentialStep
    rw [hs]
    dsimp only
    unfold adapterAnswered
    dsimp only
    split
    · exact finish_mem_attemptFailed a error e.now
    · exact List.mem_singleton_self _
  | firstEvent a item error h =>
    unfold sequentialStep
    rw [hs]
    dsimp only
    rw [h]
    exact finish_mem_attemptFailed a error e.now
  | uncollected a items usage error h =>
    unfold sequentialStep
    rw [hs]
    dsimp only
    unfold attemptCollected
    rw [h]
    exact finish_mem_attemptFailed a error e.now
  | collected a items usage response h =>
    unfold sequentialStep
    rw [hs]
    dsimp only
    unfold attemptCollected
    rw [h]
    dsimp only
    cases usage with
    | error message => exact List.mem_cons_self
    | ok u => exact List.mem_cons_self
  | streamError a guard item errorClass h =>
    unfold sequentialStep
    rw [hs]
    exact finish_mem_streamStep e.now (Or.inl (by rw [h]; rfl))
  | streamEnd a guard item h =>
    unfold sequentialStep
    rw [hs]
    exact finish_mem_streamStep e.now (Or.inr ⟨h, rfl⟩)
  | dropped a guard =>
    unfold sequentialStep
    rw [hs]
    exact List.mem_cons_self
  | racerFailed startedAt h hphase error =>
    dsimp only
    unfold raceStep
    rw [h]
    dsimp only
    unfold racerStep
    rw [hphase]
    exact List.mem_singleton_self _
  | racerUncollected startedAt h hphase usage hcollect =>
    dsimp only
    unfold raceStep
    rw [h]
    dsimp only
    unfold racerStep
    rw [hphase]
    dsimp only
    rw [hcollect]
    exact List.mem_singleton_self _
  | racerWon startedAt h hphase usage hcollect =>
    dsimp only
    rw [(raceStep_won h hphase hcollect).2]
    simp
  | racerLost startedAt h hphase usage hcollect hloser hflight =>
    dsimp only
    rw [(raceStep_won h hphase hcollect).2]
    have hcancel := finish_mem_cancelRacer hflight
    exact List.mem_append_left _
      (List.mem_append_right _ (List.mem_flatMap.2 ⟨_, hloser, hcancel⟩))

end

/-! ### Every run -/

/-- The attempts that a run starts. -/
def startedAttempts (c : Call) (events : List Event) : List AttemptKey :=
  (execute c events).2.filterMap Effect.started

/-- The attempts that a run finalises. -/
def finishedAttempts (c : Call) (events : List Event) : List AttemptKey :=
  (execute c events).2.filterMap Effect.finished

/-- At every moment the attempts that were started are those that were finalised and those in
flight. -/
theorem startedAttempts_perm (c : Call) (events : List Event) :
    (startedAttempts c events).Perm
      (finishedAttempts c events ++ (execute c events).1.phase.inFlight) := by
  refine List.perm_iff_count.2 fun k => ?_
  have hstep (s : ExecState) (e : Event) :
      s.phase.inFlight.count k + startedCount k (step c s e).2 =
        (step c s e).1.phase.inFlight.count k + finishedCount k (step c s e).2 := by
    rcases step_cases c s e with ⟨hphase, heffects⟩ | ⟨i, answer, -, hmove⟩
    · rw [hphase, heffects]
      rfl
    · exact hmove.balanced k
  have hrun := Machine.run_balance (startedCount_nil k) (finishedCount_nil k)
    (startedCount_append k) (finishedCount_append k) hstep (start c) events
  have hnone : (start c).phase.inFlight.count k = 0 := rfl
  rw [hnone, Nat.zero_add] at hrun
  rw [List.count_append]
  show startedCount k (execute c events).2 = finishedCount k (execute c events).2 + _
  unfold execute
  omega

/-- **Every adapter call of a complete run is finalised once**, with its own target and account,
and with the outcome that its answer settles. -/
theorem attempts_finished_once (c : Call) (events : List Event)
    (hdone : (execute c events).1.phase.isDone = true) :
    (finishedAttempts c events).Perm (startedAttempts c events) ∧
      (∀ before after, events = before ++ after →
        (startedAttempts c before).Perm
          (finishedAttempts c before ++ (execute c before).1.phase.inFlight)) ∧
      ∀ v ∈ Machine.visited (fun s e => (step c s e).1) (start c) events,
        ∀ target accountId outcome,
          .finishAttempt target accountId outcome ∈ (step c v.1 v.2).2 ↔
          ∃ i answer, v.2.input = .own i answer ∧
            Settles c i v.1.phase answer (target, accountId) outcome := by
  refine ⟨?_, fun before after _ => startedAttempts_perm c before, ?_⟩
  · have hnone : (execute c events).1.phase.inFlight = [] := by
      revert hdone
      cases (execute c events).1.phase <;> intro hdone <;> first | rfl | cases hdone
    have hperm := startedAttempts_perm c events
    rw [hnone, List.append_nil] at hperm
    exact hperm.symm
  · intro v _ target accountId outcome
    constructor
    · intro hmem
      rcases step_cases c v.1 v.2 with ⟨-, heffects⟩ | ⟨i, answer, hinput, hmove⟩
      · rw [heffects] at hmem
        cases hmem
      · exact ⟨i, answer, hinput, hmove.settles hmem⟩
    · rintro ⟨i, answer, hinput, hsettles⟩
      exact hsettles.finishes hinput

/-- One account of each of two providers, one retry. -/
def plainCall (hedge : Bool) : Call where
  snap :=
    { providers := .ofList
        [("p", { accounts := [{ id := "a" }] }), ("q", { accounts := [{ id := "b" }] })]
      adapter := fun _ => some {}
      hedge := { enabled := hedge, delayMs := 0 }
      retry := { maxRetries := 1, baseDelayMs := 0 } }
  req := { id := "r", model := "m", messages := [] }
  candidates := [.new "p" "m" .modelApi, .new "q" "m" .modelApi]
  fromStr := fun _ => .error ""

/-- Both racers are dispatched and the second one wins. -/
def racedEvents : List Event :=
  [⟨0, .own 0 .advance, .inMemory, none⟩, ⟨0, .own 0 .advance, .inMemory, none⟩,
    ⟨0, .own 1 .advance, .inMemory, none⟩, ⟨0, .own 0 (.leased .static), .inMemory, none⟩,
    ⟨0, .own 1 (.leased .static), .inMemory, none⟩,
    ⟨0, .own 1 (.executed (.ok ())), .inMemory, none⟩,
    ⟨1, .own 1 (.collected [.ok (.messageEnd .length)] (.ok ())), .inMemory, none⟩]

/-- The loser is cancelled, the winner succeeds. -/
theorem attempts_finished_once_of_race :
    (execute (plainCall true) racedEvents).1.phase.isDone = true ∧
      (finishedAttempts (plainCall true) racedEvents).Perm
        (startedAttempts (plainCall true) racedEvents) ∧
      (startedAttempts (plainCall true) racedEvents).map (fun k => (k.1.providerId, k.2)) =
        [("p", "a"), ("q", "b")] :=
  have hdone : (execute (plainCall true) racedEvents).1.phase.isDone = true := by decide +kernel
  ⟨hdone, (attempts_finished_once _ _ hdone).1, by decide +kernel⟩

end Switchback
