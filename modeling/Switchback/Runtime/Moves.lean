import Switchback.Runtime.Execute

/-!
# What a step of the execution can do

Each answer moves the code from one place where it waits to another, with some effects.  The moves
are listed once, so that what holds of every run is shown move by move.
-/

namespace Switchback

open Lib

/-- The account loop after an account fell over. -/
def Work.tried (work : Work) (accountId : String) : Work :=
  { work with triedAccounts := work.triedAccounts ++ [accountId] }

/-- What makes an attempt fail: the answer of the adapter when there is no retry, the first event,
or the collected stream. -/
inductive Fails (c : Call) : Phase → Answer → Attempt → AdapterError → Prop where
  | executed (a : Attempt) (error : AdapterError)
      (h : c.snap.retry.maxRetries ≤ a.retryN ∨ retryable error.errorClass = false) :
      Fails c (.executing a) (.executed (.error error)) a error
  | firstEvent (a : Attempt) (item : Option StreamItem) (error : AdapterError)
      (h : precommitStream item = .error error) :
      Fails c (.precommitting a) (.firstEvent item) a error
  | collected (a : Attempt) (items : List StreamItem) (usage : Except String Unit)
      (error : AdapterError)
      (h : collectResponse c.fromStr items c.req.id c.req.model c.snap.maxResponseBytes =
        .error error) :
      Fails c (.collecting a) (.collected items usage) a error

/-- The moves of a racer that does not win. -/
inductive RacerMove (c : Call) (r : CredentialResolver) (e : Event) (racer : Racer) :
    Answer → RacerPhase → List Effect → Prop where
  | stay (answer : Answer) : RacerMove c r e racer answer racer.phase []
  | resolve (h : racer.phase = .waiting) (accountId : String) (lease : CredentialLease) :
      RacerMove c r e racer .advance (.leasing accountId lease) []
  | unresolved (h : racer.phase = .waiting) : RacerMove c r e racer .advance .lost []
  | unleased {accountId : String} {lease : CredentialLease}
      (h : racer.phase = .leasing accountId lease) (mint : Mint) :
      RacerMove c r e racer (.leased mint) .lost []
  | call {accountId : String} {lease : CredentialLease}
      (h : racer.phase = .leasing accountId lease) (mint : Mint) (lease' : CredentialLease) :
      RacerMove c r e racer (.leased mint) (.executing accountId lease')
        [dispatch true racer.target accountId lease' r e]
  | answered {accountId : String} {lease : CredentialLease}
      (h : racer.phase = .executing accountId lease) :
      RacerMove c r e racer (.executed (.ok ())) (.collecting accountId) []
  | failed {accountId : String} {lease : CredentialLease}
      (h : racer.phase = .executing accountId lease) (error : AdapterError) :
      RacerMove c r e racer (.executed (.error error)) .lost
        [.finishAttempt racer.target accountId (.failed error.errorClass)]
  | uncollected {accountId : String} (h : racer.phase = .collecting accountId)
      {items : List StreamItem} (usage : Except String Unit) {error : AdapterError}
      (hcollect : collectResponse c.fromStr items c.req.id c.req.model c.snap.maxResponseBytes =
        .error error) :
      RacerMove c r e racer (.collected items usage) .lost
        [.finishAttempt racer.target accountId (.failed error.errorClass)]

/-- Where the race is after a racer came to `phase`. -/
def racePhase (c : Call) (startedAt : ℕ) (racers : List Racer) : Phase :=
  if racers.all fun racer => racer.phase = .lost then .targets c.candidates
  else .racing startedAt racers

/-- What the client gets next: the peeked first event, then the rest. -/
def FinishGuard.next (guard : FinishGuard) (item : Option StreamItem) : Option StreamItem :=
  match guard.first with
  | some event => some (.ok event)
  | none => item

/-- An error of the stream, or in it. -/
def itemError : Option StreamItem → Option ErrorClass
  | some (.error error) => some error.errorClass
  | some (.ok (.error _ errorClass)) => some errorClass
  | _ => none

/-- The moves of the execution; `i` is the racer that the answer is for. -/
inductive ExecMove (c : Call) (r : CredentialResolver) (e : Event) (i : ℕ) :
    Phase → Answer → Phase → List Effect → Prop where
  -- into the race or the loop
  | enter (answer : Answer) (startedAt : ℕ) :
      ExecMove c r e i .planned answer
        (if c.hedges then .racing startedAt (c.raced.map fun target => { target := target })
         else .targets c.candidates) []
  | race (startedAt : ℕ) {racers : List Racer} {racer : Racer} (h : racers[i]? = some racer)
      {answer : Answer} {phase : RacerPhase} {effects : List Effect}
      (hmove : RacerMove c r e racer answer phase effects) :
      ExecMove c r e i (.racing startedAt racers) answer
        (racePhase c startedAt (racers.set i { racer with phase := phase })) effects
  | win (startedAt : ℕ) {racers : List Racer} {racer : Racer} (h : racers[i]? = some racer)
      {accountId : String} (hphase : racer.phase = .collecting accountId)
      {items : List StreamItem} (usage : Except String Unit) {response : AiResponse}
      (hcollect : collectResponse c.fromStr items c.req.id c.req.model c.snap.maxResponseBytes =
        .ok response) :
      ExecMove c r e i (.racing startedAt racers) (.collected items usage)
        (.done (winOutcome racer.target accountId response usage).1)
        ([.finishAttempt racer.target accountId (.ok response.finishReason)] ++
          (racers.eraseIdx i).flatMap cancelRacer ++
          (winOutcome racer.target accountId response usage).2)
  -- the targets; a refusal of the spend read and of the schema ends the request
  | exhaust (error : ExecError) :
      ExecMove c r e i (.targets []) .advance (.done (.error error))
        [.recordTrace error.status false]
  | skip (target : ExecutionTarget) (rest : List ExecutionTarget) :
      ExecMove c r e i (.targets (target :: rest)) .advance (.targets rest) []
  | capUnknown (target : ExecutionTarget) (rest : List ExecutionTarget) (error : ExecError) :
      ExecMove c r e i (.targets (target :: rest)) .advance (.done (.error error))
        [.recordTrace error.status c.req.stream]
  | openTarget (target : ExecutionTarget) (rest : List ExecutionTarget) (adapter : Adapter) :
      ExecMove c r e i (.targets (target :: rest)) .advance
        (.selecting
          { target := target, adapter := adapter, rest := rest,
            allowedAccounts := c.allowedAccounts target.providerId }) []
  -- the accounts of a target: only one that was not tried is selected
  | select (work : Work) (accountId : String) (lease : CredentialLease)
      (haccount : ∃ a ∈ r.accountsOf work.target.providerId, a.id = accountId)
      (hnew : accountId ∉ work.triedAccounts) :
      ExecMove c r e i (.selecting work) .advance (.leasing work accountId lease) []
  | giveUp (work : Work) : ExecMove c r e i (.selecting work) .advance (.targets work.rest) []
  | unleased (work : Work) (accountId : String) (lease : CredentialLease) (mint : Mint) :
      ExecMove c r e i (.leasing work accountId lease) (.leased mint)
        (.selecting (work.tried accountId)) []
  | refuse (work : Work) (accountId : String) (lease : CredentialLease) (mint : Mint)
      (error : ExecError) :
      ExecMove c r e i (.leasing work accountId lease) (.leased mint) (.done (.error error))
        [.recordTrace error.status false]
  | call (work : Work) (accountId : String) (lease lease' : CredentialLease) (mint : Mint) :
      ExecMove c r e i (.leasing work accountId lease) (.leased mint)
        (.executing { work := work, accountId := accountId, lease := lease' })
        [dispatch false work.target accountId lease' r e]
  -- the attempt: every failure before the commit falls over or ends the request
  | retry (a : Attempt) (error : AdapterError) (until_ : ℕ)
      (hleft : a.retryN < c.snap.retry.maxRetries)
      (hretryable : retryable error.errorClass = true) :
      ExecMove c r e i (.executing a) (.executed (.error error))
        (.backingOff { a with retryN := a.retryN + 1 } until_)
        [.finishAttempt a.work.target a.accountId (.failed error.errorClass)]
  | redispatch (a : Attempt) (until_ : ℕ) :
      ExecMove c r e i (.backingOff a until_) .advance (.executing a)
        [dispatch false a.work.target a.accountId a.lease r e]
  | answered (a : Attempt) :
      ExecMove c r e i (.executing a) (.executed (.ok ()))
        (if c.req.stream then .precommitting a else .collecting a) []
  | fallOver {phase : Phase} {answer : Answer} {a : Attempt} {error : AdapterError}
      (h : Fails c phase answer a error) (hfallback : error.shouldFallback = true) :
      ExecMove c r e i phase answer (.selecting (a.work.tried a.accountId))
        [.finishAttempt a.work.target a.accountId (.failed error.errorClass)]
  | fail {phase : Phase} {answer : Answer} {a : Attempt} {error : AdapterError}
      (h : Fails c phase answer a error) (hfallback : error.shouldFallback = false) :
      ExecMove c r e i phase answer (.done (.error (.upstream error c.summary)))
        [.finishAttempt a.work.target a.accountId (.failed error.errorClass),
          .recordTrace (ExecError.upstream error c.summary).status false]
  | commit (a : Attempt) {item : Option StreamItem} {first : AiStreamEvent}
      (h : precommitStream item = .ok first) :
      ExecMove c r e i (.precommitting a) (.firstEvent item)
        (.streaming a { first := some first }) []
  | collect (a : Attempt) {items : List StreamItem} {response : AiResponse}
      (h : collectResponse c.fromStr items c.req.id c.req.model c.snap.maxResponseBytes =
        .ok response) :
      ExecMove c r e i (.collecting a) (.collected items (.ok ())) (.done (.collected response))
        [.finishAttempt a.work.target a.accountId (.ok response.finishReason),
          .recordUsage a.work.target a.accountId response.usage, .recordTrace 200 false]
  | unrecorded (a : Attempt) {items : List StreamItem} {response : AiResponse}
      (h : collectResponse c.fromStr items c.req.id c.req.model c.snap.maxResponseBytes =
        .ok response) (message : String) (error : ExecError) :
      ExecMove c r e i (.collecting a) (.collected items (.error message)) (.done (.error error))
        [.finishAttempt a.work.target a.accountId (.ok response.finishReason),
          .recordTrace error.status false]
  -- the stream of the client
  | deliver (a : Attempt) (guard guard' : FinishGuard) (item : Option StreamItem)
      (h : (guard.next item).isSome) (herror : itemError (guard.next item) = none) :
      ExecMove c r e i (.streaming a guard) (.delivered item) (.streaming a guard') []
  | streamFail (a : Attempt) (guard : FinishGuard) (item : Option StreamItem)
      {errorClass : ErrorClass} (h : itemError (guard.next item) = some errorClass) :
      ExecMove c r e i (.streaming a guard) (.delivered item) (.done .stream)
        [.finishAttempt a.work.target a.accountId (.failed errorClass),
          .recordTrace errorClass.httpStatus true]
  | streamEnd (a : Attempt) (guard : FinishGuard) (item : Option StreamItem) (usage : Usage)
      (h : guard.next item = none) :
      ExecMove c r e i (.streaming a guard) (.delivered item) (.done .stream)
        [.finishAttempt a.work.target a.accountId (.ok (guard.finishReason.getD .stop)),
          .recordUsage a.work.target a.accountId usage, .recordTrace 200 true]
  | drop (a : Attempt) (guard : FinishGuard) :
      ExecMove c r e i (.streaming a guard) .dropped (.done .stream)
        [.finishAttempt a.work.target a.accountId .cancelled, .recordTrace 499 true]

/-- The request is answered, and its stream, if any, drained or dropped. -/
def Phase.isDone : Phase → Bool
  | .done _ => true
  | _ => false

/-! ### Every step is a move -/

section Step

variable {c : Call} {r : CredentialResolver} {e : Event} {i : ℕ}

theorem racerStep_move (startedAt : ℕ) (racer : Racer) (answer : Answer) :
    (∃ phase, (racerStep c r startedAt i racer e answer).1 = .going phase ∧
      RacerMove c r e racer answer phase (racerStep c r startedAt i racer e answer).2.2) ∨
    ∃ accountId items usage response, racer.phase = .collecting accountId ∧
      answer = .collected items usage ∧
      collectResponse c.fromStr items c.req.id c.req.model c.snap.maxResponseBytes =
        .ok response ∧
      (racerStep c r startedAt i racer e answer).1 = .won accountId response ∧
      (racerStep c r startedAt i racer e answer).2.2 =
        [.finishAttempt racer.target accountId (.ok response.finishReason)] := by
  unfold racerStep
  dsimp only
  split
  · next hphase =>
    split
    · exact Or.inl ⟨_, rfl, hphase ▸ .stay _⟩
    · split
      · exact Or.inl ⟨_, rfl, .unresolved hphase⟩
      · split
        · exact Or.inl ⟨_, rfl, .resolve hphase _ _⟩
        · exact Or.inl ⟨_, rfl, .unresolved hphase⟩
  · next mint hphase =>
    split
    · exact Or.inl ⟨_, rfl, .unleased hphase mint⟩
    · exact Or.inl ⟨_, rfl, .call hphase mint _⟩
  · next hphase =>
    split
    · exact Or.inl ⟨_, rfl, .failed hphase _⟩
    · exact Or.inl ⟨_, rfl, .answered hphase⟩
  · next items usage hphase =>
    split
    · next hcollect => exact Or.inl ⟨_, rfl, .uncollected hphase usage hcollect⟩
    · next hcollect => exact Or.inr ⟨_, items, usage, _, hphase, rfl, hcollect, rfl, rfl⟩
  · exact Or.inl ⟨_, rfl, .stay _⟩

/-- A step of the execution: nothing happens, or a move is made. -/
def Steps (c : Call) (e : Event) (i : ℕ) (s : ExecState) (answer : Answer)
    (result : ExecState × List Effect) : Prop :=
  (result.1.phase = s.phase ∧ result.2 = []) ∨
    ExecMove c s.resolver e i s.phase answer result.1.phase result.2

variable {s : ExecState}

theorem raceStep_steps {startedAt : ℕ} {racers : List Racer}
    (hs : s.phase = .racing startedAt racers) (answer : Answer) :
    Steps c e i s answer (raceStep c s startedAt racers e i answer) := by
  unfold raceStep
  cases hi : racers[i]? with
  | none => exact Or.inl ⟨rfl, rfl⟩
  | some racer =>
    have hmove := @racerStep_move c s.resolver e i startedAt racer answer
    dsimp only
    generalize racerStep c s.resolver startedAt i racer e answer = result at hmove ⊢
    obtain ⟨raced, r, effects⟩ := result
    refine Or.inr ?_
    rw [hs]
    rcases hmove with ⟨phase, hgoing, hmove⟩ |
      ⟨accountId, items, usage, response, hphase, rfl, hcollect, hwon, heffects⟩
    · dsimp only at hgoing hmove
      subst hgoing
      exact .race startedAt hi hmove
    · dsimp only at hwon heffects
      subst hwon heffects
      exact .win startedAt hi hphase usage hcollect

theorem exhausted_move (hs : s.phase = .targets []) :
    ExecMove c s.resolver e i s.phase .advance (exhausted c s).1.phase (exhausted c s).2 := by
  rw [hs]
  unfold exhausted
  split
  · exact .exhaust _
  · split
    · exact .exhaust _
    · exact .exhaust _

theorem startTarget_move {target : ExecutionTarget} {rest : List ExecutionTarget}
    (hs : s.phase = .targets (target :: rest)) :
    ExecMove c s.resolver e i s.phase .advance (startTarget c s target rest e).1.phase
      (startTarget c s target rest e).2 := by
  rw [hs]
  unfold startTarget
  split
  · exact .skip target rest
  · split
    · exact .skip target rest
    · dsimp only
      split
      · exact .capUnknown target rest _
      · exact .skip target rest
      · exact .openTarget target rest _

theorem selectAccount_move {work : Work} (hs : s.phase = .selecting work) (now : ℕ) :
    ExecMove c s.resolver e i s.phase .advance (selectAccount c s work now).1.phase
      (selectAccount c s work now).2 := by
  have hsel := @CredentialResolver.resolve_selected s.resolver work.target.providerId
    work.target.model work.triedAccounts (sessionAffinityKey c.req) work.allowedAccounts now
  rw [hs]
  unfold selectAccount
  generalize s.resolver.resolveWithSessionAllowed work.target.providerId work.target.model
    work.triedAccounts (sessionAffinityKey c.req) work.allowedAccounts now = result at hsel ⊢
  obtain ⟨outcome, r⟩ := result
  cases outcome with
  | selected accountId lease =>
    -- whatever the strategy and the session, the selected account passed the candidate test
    obtain ⟨a, ha, hid, -, hc⟩ := hsel rfl
    refine .select work accountId lease ⟨a, ha, hid⟩ ?_
    rw [← hid]
    unfold CredentialResolver.isCandidate at hc
    simp only [Bool.and_eq_true, Bool.not_eq_true', List.contains_eq_mem,
      decide_eq_false_iff_not] at hc
    exact hc.1.1
  | allUnavailable retryAfter => exact .giveUp work
  | noAccounts => exact .giveUp work

theorem leaseAccount_move {work : Work} {accountId : String} {lease : CredentialLease}
    (hs : s.phase = .leasing work accountId lease) (mint : Mint) :
    ExecMove c s.resolver e i s.phase (.leased mint)
      (leaseAccount c s work accountId lease mint e).1.phase
      (leaseAccount c s work accountId lease mint e).2 := by
  rw [hs]
  unfold leaseAccount
  split
  · exact .unleased work accountId lease mint
  · dsimp only
    split
    · exact .refuse work accountId lease mint _
    · exact .call work accountId lease _ mint

variable {a : Attempt}

theorem attemptFailed_move {answer : Answer} {error : AdapterError}
    (h : Fails c s.phase answer a error) (now : ℕ) :
    ExecMove c s.resolver e i s.phase answer (attemptFailed c s a error now).1.phase
      (attemptFailed c s a error now).2 := by
  unfold attemptFailed
  dsimp only
  split
  · next hfallback => exact .fallOver h hfallback
  · next hfallback => exact .fail h (by simpa using hfallback)

theorem adapterAnswered_move (hs : s.phase = .executing a)
    (result : Except AdapterError Unit) (now : ℕ) :
    ExecMove c s.resolver e i s.phase (.executed result) (adapterAnswered c s a result now).1.phase
      (adapterAnswered c s a result now).2 := by
  unfold adapterAnswered
  split
  · next error =>
    split
    · next hdone =>
      refine attemptFailed_move ?_ now
      rw [hs]
      exact .executed a error (by simpa using hdone)
    · next hretry =>
      rw [hs]
      simp only [not_or, not_le, Bool.not_eq_true, Bool.not_eq_false'] at hretry
      exact .retry a error _ hretry.1 hretry.2
  · rw [hs]
    exact .answered a

theorem attemptCollected_move (hs : s.phase = .collecting a)
    (items : List StreamItem) (usage : Except String Unit) (now : ℕ) :
    ExecMove c s.resolver e i s.phase (.collected items usage)
      (attemptCollected c s a items usage now).1.phase
      (attemptCollected c s a items usage now).2 := by
  unfold attemptCollected
  split
  · next error herror =>
    refine attemptFailed_move ?_ now
    rw [hs]
    exact .collected a items usage error herror
  · next response hresponse =>
    rw [hs]
    dsimp only
    split
    · exact .unrecorded a hresponse _ _
    · exact .collect a hresponse

theorem deliver_steps {guard : FinishGuard} (hs : s.phase = .streaming a guard)
    (item : Option StreamItem) (guard' : FinishGuard)
    (hreason : guard'.finishReason = guard.finishReason) (now : ℕ) :
    Steps c e i s (.delivered item) (deliver s a guard' now (guard.next item)) := by
  refine Or.inr ?_
  rw [hs]
  unfold deliver
  split
  · next hnext => exact .streamFail a guard item (by rw [hnext]; rfl)
  · next hnext => exact .streamFail a guard item (by rw [hnext]; rfl)
  · next hnext => exact .deliver a guard _ item (by rw [hnext]; rfl) (by rw [hnext]; rfl)
  · next hnext => exact .deliver a guard _ item (by rw [hnext]; rfl) (by rw [hnext]; rfl)
  · next event herror hend husage hnext =>
    -- the catch-all branch: every event but the in-band error is passed on
    refine .deliver a guard _ item (by rw [hnext]; rfl) ?_
    rw [hnext]
    cases event with
    | error message errorClass => exact absurd rfl (herror message errorClass)
    | _ => rfl
  · next hnext =>
    rw [hreason]
    exact .streamEnd a guard item _ hnext

theorem streamStep_steps {guard : FinishGuard} (hs : s.phase = .streaming a guard)
    (now : ℕ) (answer : Answer) : Steps c e i s answer (streamStep s a guard now answer) := by
  unfold streamStep
  split
  · next item =>
    have hnext := deliver_steps (c := c) (e := e) (i := i) hs item
    unfold FinishGuard.next at hnext
    cases hfirst : guard.first with
    | some event =>
      rw [hfirst] at hnext
      exact hnext { guard with first := none } rfl now
    | none =>
      rw [hfirst] at hnext
      exact hnext guard rfl now
  · refine Or.inr ?_
    rw [hs]
    exact .drop a guard
  · exact Or.inl ⟨rfl, rfl⟩

theorem sequentialStep_steps (answer : Answer) :
    Steps c e i s answer (sequentialStep c s e answer) := by
  unfold sequentialStep
  split
  · next hs => exact Or.inr (exhausted_move hs)
  · next hs => exact Or.inr (startTarget_move hs)
  · next hs => exact Or.inr (selectAccount_move hs _)
  · next hs => exact Or.inr (leaseAccount_move hs _)
  · next hs => exact Or.inr (adapterAnswered_move hs _ _)
  · next a until_ hs =>
    split
    · exact Or.inl ⟨rfl, rfl⟩
    · refine Or.inr ?_
      rw [hs]
      exact .redispatch a until_
  · next hs =>
    split
    · next error herror =>
      refine Or.inr (attemptFailed_move ?_ _)
      rw [hs]
      exact .firstEvent _ _ error herror
    · next first hfirst =>
      refine Or.inr ?_
      rw [hs]
      exact .commit _ hfirst
  · next hs => exact Or.inr (attemptCollected_move hs _ _ _)
  · next hs => exact streamStep_steps hs _ _
  · exact Or.inl ⟨rfl, rfl⟩

end Step

/-- **A step stays where it is without effects, or makes a move.** -/
theorem step_cases (c : Call) (s : ExecState) (e : Event) :
    ((step c s e).1.phase = s.phase ∧ (step c s e).2 = []) ∨
      ∃ i answer, e.input = .own i answer ∧
        ExecMove c s.resolver e i s.phase answer (step c s e).1.phase (step c s e).2 := by
  have hmove {i : ℕ} {answer : Answer} {result : ExecState × List Effect}
      (he : e.input = .own i answer) (h : Steps c e i s answer result) :
      (result.1.phase = s.phase ∧ result.2 = []) ∨ ∃ i answer, e.input = .own i answer ∧
        ExecMove c s.resolver e i s.phase answer result.1.phase result.2 :=
    h.imp id fun h => ⟨i, answer, he, h⟩
  unfold step
  split
  · exact Or.inl ⟨rfl, rfl⟩
  · next i answer he =>
    split
    · next hs =>
      refine Or.inr ⟨i, answer, he, ?_⟩
      rw [hs]
      exact .enter answer e.now
    · next startedAt racers hs => exact hmove he (raceStep_steps hs answer)
    · exact hmove he (sequentialStep_steps answer)

/-- The steps of a run: each state with the event that comes next. -/
abbrev trail (c : Call) (events : List Event) : List (ExecState × Event) :=
  Machine.visited (fun s e => (step c s e).1) (start c) events

/-! ### The accounts stay -/

section Providers

variable (c : Call) (s : ExecState) (e : Event)

theorem finishBreaker_providers (r : CredentialResolver) (providerId : String) (now : ℕ)
    (outcome : FinishOutcome) :
    (finishBreaker r providerId now outcome).providers = r.providers := by
  cases outcome <;> rfl

theorem failAttempt_providers (r : CredentialResolver) (target : ExecutionTarget)
    (accountId : String) (errorClass : ErrorClass) (now : ℕ) :
    (failAttempt r target accountId errorClass now).1.providers = r.providers :=
  finishBreaker_providers _ _ _ _

theorem racerStep_providers (r : CredentialResolver) (startedAt i : ℕ) (racer : Racer)
    (answer : Answer) :
    (racerStep c r startedAt i racer e answer).2.1.providers = r.providers := by
  have hresolve := (r.resolve_frame racer.target.providerId racer.target.model []
    (sessionAffinityKey c.req) none e.now).1
  unfold racerStep CredentialResolver.resolveWithSession
  dsimp only
  split
  · split
    · rfl
    · split
      · rfl
      · split
        · next h => rw [h] at hresolve; exact hresolve
        · next h => rw [h] at hresolve; exact hresolve
  · split <;> rfl
  · split
    · exact failAttempt_providers r _ _ _ _
    · rfl
  · split
    · exact failAttempt_providers r _ _ _ _
    · rfl
  · rfl

theorem raceStep_providers (startedAt : ℕ) (racers : List Racer) (i : ℕ) (answer : Answer) :
    (raceStep c s startedAt racers e i answer).1.resolver.providers = s.resolver.providers := by
  unfold raceStep
  split
  · rfl
  · next racer _ =>
    have hracer := racerStep_providers c e s.resolver startedAt i racer answer
    split
    · next h => rw [h] at hracer; exact hracer
    · next h => rw [h] at hracer; exact hracer

theorem attemptFailed_providers (a : Attempt) (error : AdapterError) (now : ℕ) :
    (attemptFailed c s a error now).1.resolver.providers = s.resolver.providers := by
  unfold attemptFailed
  dsimp only
  split
  · exact failAttempt_providers _ _ _ _ _
  · exact failAttempt_providers _ _ _ _ _

theorem sequentialStep_providers (answer : Answer) :
    (sequentialStep c s e answer).1.resolver.providers = s.resolver.providers := by
  unfold sequentialStep
  split
  · unfold exhausted
    split
    · rfl
    · split <;> rfl
  · next target _ _ =>
    have hallows : (s.resolver.circuitAllows target.providerId e.now).2.providers =
      s.resolver.providers := rfl
    unfold startTarget
    split
    · rfl
    · split
      · next h => rw [h] at hallows; exact hallows
      · next h =>
        rw [h] at hallows
        dsimp only
        split <;> exact hallows
  · next work _ =>
    have hresolve := (s.resolver.resolve_frame work.target.providerId work.target.model
      work.triedAccounts (sessionAffinityKey c.req) work.allowedAccounts e.now).1
    unfold selectAccount
    split
    · next h => rw [h] at hresolve; exact hresolve
    · next h => rw [h] at hresolve; exact hresolve
    · next h => rw [h] at hresolve; exact hresolve
  · unfold leaseAccount
    split
    · rfl
    · dsimp only
      split <;> rfl
  · unfold adapterAnswered
    split
    · split
      · exact attemptFailed_providers c s _ _ _
      · exact finishBreaker_providers _ _ _ _
    · rfl
  · split <;> rfl
  · split
    · exact attemptFailed_providers c s _ _ _
    · rfl
  · unfold attemptCollected
    split
    · exact attemptFailed_providers c s _ _ _
    · dsimp only
      split <;> rfl
  · unfold streamStep
    split
    · split <;> unfold deliver <;> split <;> rfl
    · rfl
    · rfl
  · rfl

theorem step_providers : (step c s e).1.resolver.providers = s.resolver.providers := by
  unfold step
  split
  · exact s.resolver.apply_providers _ _
  · split
    · rfl
    · exact raceStep_providers c s e _ _ _ _
    · exact sequentialStep_providers c s e _

end Providers

end Switchback
