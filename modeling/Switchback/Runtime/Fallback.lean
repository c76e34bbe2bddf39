import Mathlib.Algebra.BigOperators.Ring.List
import Switchback.Runtime.Attempts
import Switchback.Runtime.Dispatch

/-!
# The loop over targets and accounts

The loop falls over from account to account and from target to target, and has no bound of its own:
it ends because the resolver leaves out the accounts that were tried.
-/

namespace Switchback

open Lib

/-- The loop waits for this answer at this time. -/
def Phase.awaits (now : ℕ) : Phase → Answer → Bool
  | .targets _, .advance | .selecting _, .advance | .leasing .., .leased _
  | .executing _, .executed _ | .precommitting _, .firstEvent _
  | .collecting _, .collected .. => true
  | .backingOff _ until_, .advance => until_ ≤ now
  | _, _ => false

def Phase.awaited (phase : Phase) (e : Event) : Bool :=
  match e.input with
  | .own _ answer => phase.awaits e.now answer
  | .other _ => false

/-- The code is in the loop. -/
def Phase.inLoop : Phase → Bool
  | .targets _ | .selecting _ | .leasing .. | .executing _ | .backingOff .. | .precommitting _
  | .collecting _ => true
  | .planned | .racing .. | .streaming .. | .done _ => false

/-- The stream is with the client, or the request is answered. -/
def Phase.isCommitted : Phase → Bool
  | .streaming .. | .done _ => true
  | _ => false

/-! ### The loop ends -/

section Loop

variable (c : Call)

/-- The steps that one account takes at most. -/
def accountSteps : ℕ :=
  -- select, lease, call, answer and first event or collection; a retry is a call and a backoff
  2 * c.snap.retry.maxRetries + 5

/-- The steps that one target takes at most. -/
def targetSteps (target : ExecutionTarget) : ℕ :=
  2 + accountSteps c * (c.accounts target.providerId).length

/-- The steps that some targets take at most. -/
def targetsSteps (targets : List ExecutionTarget) : ℕ := (targets.map (targetSteps c)).sum + 1

/-- The accounts of the target that did not fall over. -/
def untried (work : Work) : List Account :=
  (c.accounts work.target.providerId).filter fun a => a.id ∉ work.triedAccounts

/-- The steps that are left when an account of the target is to be selected. -/
def workSteps (work : Work) : ℕ :=
  targetsSteps c work.rest + 1 + accountSteps c * (untried c work).length

/-- The steps that are left when the attempt has fallen over. -/
def Attempt.after (a : Attempt) : ℕ := workSteps c (a.work.tried a.accountId)

/-- The steps that the loop can still take. -/
def loopLeft : Phase → ℕ
  | .planned | .racing .. => targetsSteps c c.candidates
  | .targets rest => targetsSteps c rest
  | .selecting work => workSteps c work
  | .leasing work accountId _ =>
      workSteps c (work.tried accountId) + 2 * c.snap.retry.maxRetries + 4
  | .executing a => a.after c + 2 + 2 * (c.snap.retry.maxRetries - a.retryN)
  | .backingOff a _ => a.after c + 3 + 2 * (c.snap.retry.maxRetries - a.retryN)
  | .precommitting a | .collecting a => a.after c + 1
  | .streaming .. | .done _ => 0

variable {c}

theorem untried_tried_lt {work : Work} {accountId : String}
    (haccount : ∃ a ∈ c.accounts work.target.providerId, a.id = accountId)
    (hnew : accountId ∉ work.triedAccounts) :
    (untried c (work.tried accountId)).length < (untried c work).length := by
  obtain ⟨a, ha, rfl⟩ := haccount
  unfold untried Work.tried
  dsimp only
  have hsplit : (c.accounts work.target.providerId).filter
      (fun b => b.id ∉ work.triedAccounts ++ [a.id]) =
      ((c.accounts work.target.providerId).filter (fun b => b.id ∉ work.triedAccounts)).filter
        (fun b => b.id ≠ a.id) := by
    rw [List.filter_filter]
    refine List.filter_congr fun b _ => ?_
    simp only [List.mem_append, List.mem_singleton, not_or]
    by_cases hb : b.id = a.id <;> simp [hb]
  rw [hsplit]
  -- several accounts may share the id; one of them is enough for the strict inequality
  refine List.length_filter_lt_length_iff_exists.2 ⟨a, ?_, by simp⟩
  exact List.mem_filter.2 ⟨ha, by simpa using hnew⟩

theorem targetsSteps_cons (target : ExecutionTarget) (rest : List ExecutionTarget) :
    targetsSteps c (target :: rest) = targetSteps c target + targetsSteps c rest := by
  unfold targetsSteps
  rw [List.map_cons, List.sum_cons]
  omega

theorem workSteps_open (work : Work) (h : work.triedAccounts = []) :
    workSteps c work + 1 = targetSteps c work.target + targetsSteps c work.rest := by
  have huntried : untried c work = c.accounts work.target.providerId := by
    unfold untried
    rw [h]
    simp
  unfold workSteps targetSteps
  rw [huntried]
  omega

theorem workSteps_tried {work : Work} {accountId : String}
    (haccount : ∃ a ∈ c.accounts work.target.providerId, a.id = accountId)
    (hnew : accountId ∉ work.triedAccounts) :
    workSteps c (work.tried accountId) + accountSteps c ≤ workSteps c work := by
  have hlt := untried_tried_lt haccount hnew
  have hmul := Nat.mul_le_mul_left (accountSteps c) (Nat.succ_le_of_lt hlt)
  have hrest : (work.tried accountId).rest = work.rest := rfl
  unfold workSteps
  rw [hrest]
  rw [Nat.mul_succ] at hmul
  omega

theorem loopLeft_of_fails {phase : Phase} {answer : Answer} {a : Attempt} {error : AdapterError}
    (h : Fails c phase answer a error) : a.after c < loopLeft c phase := by
  cases h with
  | executed _ _ _ =>
    simp only [loopLeft]
    omega
  | firstEvent _ _ _ _ => exact Nat.lt_succ_self _
  | collected _ _ _ _ _ => exact Nat.lt_succ_self _

theorem loopLeft_pos {phase : Phase} (h : phase.inLoop = true) : 0 < loopLeft c phase := by
  cases phase with
  | targets rest => exact Nat.succ_pos _
  | selecting work =>
    simp only [loopLeft, workSteps]
    omega
  | leasing work accountId lease => exact Nat.succ_pos _
  | executing a =>
    simp only [loopLeft]
    omega
  | backingOff a until_ =>
    simp only [loopLeft]
    omega
  | precommitting a => exact Nat.succ_pos _
  | collecting a => exact Nat.succ_pos _
  | _ => cases h

theorem loopLeft_racePhase (startedAt : ℕ) (racers : List Racer) :
    loopLeft c (racePhase c startedAt racers) = targetsSteps c c.candidates := by
  unfold racePhase
  split <;> rfl

variable {r : CredentialResolver} {e : Event} {i : ℕ} {phase phase' : Phase} {answer : Answer}
  {effects : List Effect}

theorem accounts_of_accountsOf (hr : r.providers = c.snap.providers) (providerId : String) :
    r.accountsOf providerId = c.accounts providerId := by
  unfold CredentialResolver.accountsOf
  rw [hr]
  rfl

/-- **One move of the loop** takes one of the steps that are left. -/
theorem ExecMove.loopLeft_lt (hr : r.providers = c.snap.providers)
    (h : ExecMove c r e i phase answer phase' effects) (hloop : phase.inLoop = true) :
    loopLeft c phase' < loopLeft c phase := by
  cases h with
  | exhaust error => exact Nat.succ_pos _
  | skip target rest =>
    have hcons := targetsSteps_cons (c := c) target rest
    unfold targetSteps at hcons
    simp only [loopLeft]
    omega
  | capUnknown target rest error => exact Nat.succ_pos _
  | openTarget target rest adapter =>
    have hcons := targetsSteps_cons (c := c) target rest
    have hopen := workSteps_open (c := c)
      ⟨target, adapter, rest, [], c.allowedAccounts target.providerId⟩ rfl
    simp only [loopLeft]
    dsimp only at hopen
    omega
  | select work accountId lease haccount hnew =>
    -- the one step that has to pay for a whole account, with an account that was untried
    rw [accounts_of_accountsOf hr] at haccount
    have htried := workSteps_tried haccount hnew
    unfold accountSteps at htried
    simp only [loopLeft]
    omega
  | giveUp work =>
    simp only [loopLeft]
    unfold workSteps
    omega
  | unleased work accountId lease mint =>
    simp only [loopLeft]
    omega
  | refuse work accountId lease mint error =>
    simp only [loopLeft]
    omega
  | call work accountId lease lease' mint =>
    simp only [loopLeft, Attempt.after]
    omega
  | retry a error until_ hleft hretryable =>
    simp only [loopLeft, Attempt.after]
    omega
  | redispatch a until_ =>
    simp only [loopLeft]
    omega
  | answered a =>
    split
    · simp only [loopLeft]
      omega
    · simp only [loopLeft]
      omega
  | fallOver h hfallback => exact loopLeft_of_fails h
  | fail h hfallback => exact Nat.zero_lt_of_lt (loopLeft_of_fails h)
  | commit a h => exact Nat.succ_pos _
  | collect a h => exact Nat.succ_pos _
  | unrecorded a h message error => exact Nat.succ_pos _
  | _ => cases hloop

theorem ExecMove.loopLeft_le (hr : r.providers = c.snap.providers)
    (h : ExecMove c r e i phase answer phase' effects) : loopLeft c phase' ≤ loopLeft c phase := by
  by_cases hloop : phase.inLoop = true
  · exact (h.loopLeft_lt hr hloop).le
  -- outside the loop: before it all steps are left, after it none
  cases h with
  | enter answer startedAt =>
    split <;> exact Nat.le_refl _
  | race startedAt h hmove =>
    rw [loopLeft_racePhase]
    exact Nat.le_refl _
  | win startedAt h hphase usage hcollect => exact Nat.zero_le _
  | deliver a guard guard' item h herror => exact Nat.le_refl _
  | streamFail a guard item h => exact Nat.le_refl _
  | streamEnd a guard item usage h => exact Nat.le_refl _
  | drop a guard => exact Nat.le_refl _
  | fallOver h hfallback => cases h <;> exact absurd rfl hloop
  | fail h hfallback => cases h <;> exact absurd rfl hloop
  | _ => exact absurd rfl hloop

end Loop

section Awaited

variable {c : Call} {s : ExecState} {e : Event} {i : ℕ} {answer : Answer}

theorem awaited_move (he : e.input = .own i answer) (h : s.phase.awaits e.now answer = true) :
    ExecMove c s.resolver e i s.phase answer (step c s e).1.phase (step c s e).2 := by
  have hstep : step c s e = sequentialStep c s e answer := by
    unfold step
    rw [he]
    dsimp only
    split
    · next hs => rw [hs] at h; cases h
    · next hs => rw [hs] at h; cases h
    · rfl
  rw [hstep]
  unfold sequentialStep
  split
  · next hs => exact exhausted_move hs
  · next hs => exact startTarget_move hs
  · next hs => exact selectAccount_move hs _
  · next hs => exact leaseAccount_move hs _
  · next hs => exact adapterAnswered_move hs _ _
  · next a until_ hs =>
    rw [hs] at h ⊢
    have hdue : ¬ e.now < until_ := by simpa [Phase.awaits] using h
    rw [if_neg hdue]
    exact .redispatch a until_
  · next a item hs =>
    split
    · next error herror =>
      refine attemptFailed_move ?_ _
      rw [hs]
      exact .firstEvent _ _ error herror
    · next first hfirst =>
      rw [hs]
      exact .commit _ hfirst
  · next hs => exact attemptCollected_move hs _ _ _
  · next hs => rw [hs] at h; cases h
  · next _ hnil hcons hselecting hleasing hexecuting hbackingOff hfirst hcollecting =>
    exfalso
    unfold Phase.awaits at h
    split at h
    · next rest hs =>
      cases rest with
      | nil => exact hnil hs rfl
      | cons target rest => exact hcons target rest hs rfl
    · next hs => exact hselecting _ hs rfl
    · next hs => exact hleasing _ _ _ _ hs rfl
    · next hs => exact hexecuting _ _ hs rfl
    · next hs => exact hfirst _ _ hs rfl
    · next hs => exact hcollecting _ _ _ hs rfl
    · next hs => exact hbackingOff _ _ hs rfl
    · cases h

theorem Phase.exists_awaits {phase : Phase} (h : phase.inLoop = true) :
    ∃ answer t, ∀ now, t ≤ now → phase.awaits now answer = true := by
  cases phase with
  | targets rest => exact ⟨.advance, 0, fun _ _ => rfl⟩
  | selecting work => exact ⟨.advance, 0, fun _ _ => rfl⟩
  | leasing work accountId lease => exact ⟨.leased .static, 0, fun _ _ => rfl⟩
  | executing a => exact ⟨.executed (.ok ()), 0, fun _ _ => rfl⟩
  | backingOff a until_ => exact ⟨.advance, until_, fun now h => decide_eq_true h⟩
  | precommitting a => exact ⟨.firstEvent none, 0, fun _ _ => rfl⟩
  | collecting a => exact ⟨.collected [] (.ok ()), 0, fun _ _ => rfl⟩
  | _ => cases h

theorem Phase.inLoop_of_awaits {phase : Phase} {now : ℕ} (h : phase.awaits now answer = true) :
    phase.inLoop = true := by
  unfold Phase.awaits at h
  split at h
  all_goals first | rfl | cases h

/-- **One step**: an awaited answer takes one of the steps that are left. -/
theorem step_loopLeft (hr : s.resolver.providers = c.snap.providers) :
    (s.phase.awaited e).toNat + loopLeft c (step c s e).1.phase ≤ loopLeft c s.phase := by
  cases hawaited : s.phase.awaited e with
  | true =>
    unfold Phase.awaited at hawaited
    split at hawaited
    · next i answer he =>
      have hlt := (awaited_move (c := c) he hawaited).loopLeft_lt hr
        (Phase.inLoop_of_awaits hawaited)
      rw [Bool.toNat_true]
      omega
    · cases hawaited
  | false =>
    rw [Bool.toNat_false, Nat.zero_add]
    rcases step_cases c s e with ⟨hphase, -⟩ | ⟨i, answer, -, hmove⟩
    · rw [hphase]
    · exact hmove.loopLeft_le hr

end Awaited

/-- The awaited answers that a run has got. -/
def loopSteps (c : Call) (events : List Event) : ℕ :=
  (trail c events).countP fun v => v.1.phase.awaited v.2

/-- **Every run** takes at most the steps that the targets of the plan take. -/
theorem loopSteps_le (c : Call) (events : List Event) :
    loopSteps c events + loopLeft c (execute c events).1.phase ≤ targetsSteps c c.candidates := by
  have hcount (vs : List (ExecState × Event)) :
      (vs.map fun v => (v.1.phase.awaited v.2).toNat).sum =
        vs.countP fun v => v.1.phase.awaited v.2 := by
    induction vs with
    | nil => rfl
    | cons v vs ih =>
      rw [List.map_cons, List.sum_cons, ih, List.countP_cons, Nat.add_comm]
      cases v.1.phase.awaited v.2 <;> rfl
  have hpaid := @Machine.foldl_potential _ _ (fun s e => (step c s e).1)
    (fun s => s.resolver.providers = c.snap.providers) (fun s => loopLeft c s.phase)
    (fun s e => (s.phase.awaited e).toNat) (fun _ _ => 0)
    (fun s e hs => (step_providers c s e).trans hs) (fun s e hs => step_loopLeft hs)
    (start c) rfl events
  have hfree : ((trail c events).map fun _ => 0).sum = 0 := by simp
  rw [hcount, hfree, ← Machine.run_fst] at hpaid
  exact hpaid

/-! ### Accounts and calls -/

/-- An account in one pass of the loop over the targets: at `target`, with `rest` to come. -/
structure Pass where
  target : ExecutionTarget
  rest : List ExecutionTarget
  accountId : String
  deriving DecidableEq

def Pass.key (p : Pass) : AttemptKey := (p.target, p.accountId)

def Work.pass (work : Work) (accountId : String) : Pass :=
  { target := work.target, rest := work.rest, accountId := accountId }

def Attempt.pass (a : Attempt) : Pass := a.work.pass a.accountId

namespace Phase

/-- The account that is selected between two phases. -/
def selects : Phase → Phase → Option Pass
  | .selecting work, .leasing _ accountId _ => some (work.pass accountId)
  | _, _ => none

/-- The account that the adapter is called with outside the race. -/
def calls : Phase → Phase → Option Pass
  | .leasing .., .executing a | .backingOff .., .executing a => some a.pass
  | _, _ => none

/-- The account whose call failed transiently. -/
def failsTransiently : Phase → Input → Option Pass
  | .executing a, .own _ (.executed (.error error)) =>
      if retryable error.errorClass then some a.pass else none
  | _, _ => none

end Phase

/-- The account can be selected in the account loop, or in a later pass. -/
def Work.selectable (work : Work) (p : Pass) : Prop :=
  p.target :: p.rest <:+ work.rest ∨
    (p = work.pass p.accountId ∧ p.accountId ∉ work.triedAccounts)

/-- The account can still be selected. -/
def Phase.selectable (c : Call) (p : Pass) : Phase → Prop
  | .planned | .racing .. => p.target :: p.rest <:+ c.candidates
  | .targets rest => p.target :: p.rest <:+ rest
  | .selecting work => work.selectable p
  | .leasing work accountId _ => (work.tried accountId).selectable p
  | .executing a | .backingOff a _ | .precommitting a | .collecting a =>
      (a.work.tried a.accountId).selectable p
  | .streaming .. | .done _ => False

/-- The calls that the selected account has left. -/
def Phase.callsLeft (c : Call) (p : Pass) : Phase → ℕ
  | .leasing work accountId _ =>
      if work.pass accountId = p then c.snap.retry.maxRetries + 1 else 0
  | .executing a => if a.pass = p then c.snap.retry.maxRetries - a.retryN else 0
  | .backingOff a _ => if a.pass = p then c.snap.retry.maxRetries - a.retryN + 1 else 0
  | _ => 0

/-- The call that the selection, or a transient failure, has left. -/
def Phase.callOwed (p : Pass) : Phase → ℕ
  | .leasing work accountId _ => if work.pass accountId = p then 1 else 0
  | .backingOff a _ => if a.pass = p then 1 else 0
  | _ => 0

section Passes

variable {c : Call} {r : CredentialResolver} {e : Event} {i : ℕ} {phase phase' : Phase}
  {answer : Answer} {effects : List Effect} {p : Pass}

theorem Work.selectable_of_tried {work : Work} {accountId : String}
    (h : (work.tried accountId).selectable p) : work.selectable p := by
  rcases h with h | ⟨hpass, htried⟩
  · exact Or.inl h
  -- fewer tried accounts, more that can be selected
  · exact Or.inr ⟨hpass, fun hmem => htried (List.mem_append_left _ hmem)⟩

/-- An account that fell over is not selectable in this pass, and this pass is over later. -/
theorem Work.not_selectable_tried (work : Work) (accountId : String) :
    ¬ (work.tried accountId).selectable (work.pass accountId) := by
  rintro (h | ⟨-, htried⟩)
  -- a later pass has fewer targets to come than this one
  · have hlength := h.length_le
    simp [Work.pass, Work.tried] at hlength
  · exact htried (by simp [Work.pass, Work.tried])

variable {error : AdapterError} {a : Attempt}

theorem selectable_of_fails (h : Fails c phase answer a error) :
    phase.selectable c p = (a.work.tried a.accountId).selectable p := by
  cases h <;> rfl

theorem ExecMove.selectable_of (h : ExecMove c r e i phase answer phase' effects)
    (hp : phase'.selectable c p) : phase.selectable c p := by
  cases h with
  | enter answer startedAt =>
    split at hp
    · exact hp
    · exact hp
  | race startedAt h hmove =>
    unfold racePhase at hp
    split at hp
    · exact hp
    · exact hp
  | skip target rest => exact hp.trans (List.suffix_cons target rest)
  | openTarget target rest adapter =>
    -- the pass that is opened was the first one ahead
    rcases hp with hp | ⟨hpass, -⟩
    · exact hp.trans (List.suffix_cons target rest)
    · rw [hpass]
      exact List.suffix_refl _
  | select work accountId lease haccount hnew => exact Work.selectable_of_tried hp
  | giveUp work => exact Or.inl hp
  | unleased work accountId lease mint => exact hp
  | call work accountId lease lease' mint => exact hp
  | retry a error until_ hleft hretryable => exact hp
  | redispatch a until_ => exact hp
  | answered a =>
    split at hp
    · exact hp
    · exact hp
  | fallOver h hfallback =>
    rw [selectable_of_fails h]
    exact hp
  | deliver a guard guard' item h herror => exact hp
  | _ => cases hp

theorem ExecMove.selectable_of_selects (h : ExecMove c r e i phase answer phase' effects)
    (hp : phase.selects phase' = some p) :
    phase.selectable c p ∧ ¬ phase'.selectable c p := by
  unfold Phase.selects at hp
  split at hp
  · cases h with
    | select _ _ _ haccount hnew =>
      cases hp
      exact ⟨Or.inr ⟨rfl, hnew⟩, Work.not_selectable_tried _ _⟩
  · cases hp

theorem ExecMove.callsLeft_le (h : ExecMove c r e i phase answer phase' effects) (p : Pass) :
    (phase.calls phase').toList.count p + phase'.callsLeft c p ≤
      phase.callsLeft c p +
        (c.snap.retry.maxRetries + 1) * (phase.selects phase').toList.count p := by
  cases h with
  | enter answer startedAt => split <;> simp [Phase.calls, Phase.callsLeft]
  | race startedAt h hmove =>
    unfold racePhase
    split <;> simp [Phase.calls, Phase.callsLeft]
  | select work accountId lease haccount hnew =>
    simp only [Phase.calls, Phase.callsLeft, Phase.selects, Option.toList_none, List.count_nil,
      Option.toList_some, List.count_singleton, beq_iff_eq]
    split <;> simp
  | call work accountId lease lease' mint =>
    by_cases hp : work.pass accountId = p
    · simp [Phase.calls, Phase.callsLeft, Attempt.pass, hp]
      omega
    · simp [Phase.calls, Phase.callsLeft, Attempt.pass, hp]
  | retry a error until_ hleft hretryable =>
    by_cases hp : a.work.pass a.accountId = p
    · simp [Phase.calls, Phase.callsLeft, Attempt.pass, hp]
      omega
    · simp [Phase.calls, Phase.callsLeft, Attempt.pass, hp]
  | redispatch a until_ =>
    by_cases hp : a.pass = p
    · simp [Phase.calls, Phase.callsLeft, hp]
      omega
    · simp [Phase.calls, Phase.callsLeft, hp]
  | answered a => split <;> simp [Phase.calls, Phase.callsLeft]
  | fallOver h hfallback => cases h <;> simp [Phase.calls, Phase.callsLeft]
  | fail h hfallback => cases h <;> simp [Phase.calls, Phase.callsLeft]
  | _ => simp [Phase.calls, Phase.callsLeft]

theorem ExecMove.callOwed_le (h : ExecMove c r e i phase answer phase' effects) (p : Pass) :
    (phase.calls phase').toList.count p + phase'.callOwed p ≤
      phase.callOwed p + ((phase.selects phase').toList.count p +
        (phase.failsTransiently (.own i answer)).toList.count p) := by
  cases h with
  | enter answer startedAt => split <;> simp [Phase.calls, Phase.callOwed]
  | race startedAt h hmove =>
    unfold racePhase
    split <;> simp [Phase.calls, Phase.callOwed]
  | select work accountId lease haccount hnew =>
    by_cases hp : work.pass accountId = p
    · simp [Phase.calls, Phase.callOwed, Phase.selects, hp]
    · simp [Phase.calls, Phase.callOwed, hp]
  | call work accountId lease lease' mint =>
    by_cases hp : work.pass accountId = p
    · simp [Phase.calls, Phase.callOwed, Attempt.pass, hp]
    · simp [Phase.calls, Phase.callOwed, Attempt.pass, hp]
  | retry a error until_ hleft hretryable =>
    by_cases hp : a.work.pass a.accountId = p
    · simp [Phase.calls, Phase.callOwed, Phase.failsTransiently, Attempt.pass, hretryable, hp]
    · simp [Phase.calls, Phase.callOwed, Attempt.pass, hp]
  | redispatch a until_ =>
    by_cases hp : a.pass = p
    · simp [Phase.calls, Phase.callOwed, hp]
    · simp [Phase.calls, Phase.callOwed, hp]
  | answered a => split <;> simp [Phase.calls, Phase.callOwed]
  | fallOver h hfallback => cases h <;> simp [Phase.calls, Phase.callOwed]
  | fail h hfallback => cases h <;> simp [Phase.calls, Phase.callOwed]
  | _ => simp [Phase.calls, Phase.callOwed]

/-- The calls outside the race among some effects. -/
def loopDispatches (effects : List Effect) : List Dispatch :=
  (effects.filterMap Effect.dispatched).filter fun d => !d.hedged

def Dispatch.key (d : Dispatch) : AttemptKey := (d.target, d.accountId)

theorem cancelRacer_dispatched (racers : List Racer) :
    (racers.flatMap cancelRacer).filterMap Effect.dispatched = [] := by
  rw [List.filterMap_flatMap]
  refine List.flatMap_eq_nil_iff.2 fun racer _ => ?_
  unfold cancelRacer
  split <;> rfl

theorem RacerMove.loopDispatches {racer : Racer} {phase : RacerPhase}
    (h : RacerMove c r e racer answer phase effects) : loopDispatches effects = [] := by
  cases h <;> rfl

/-- The calls of a move outside the race are those that its phases tell. -/
theorem ExecMove.loopDispatches (h : ExecMove c r e i phase answer phase' effects) :
    (Switchback.loopDispatches effects).map Dispatch.key =
      (phase.calls phase').toList.map Pass.key := by
  cases h with
  | enter answer startedAt => split <;> rfl
  | race startedAt h hmove =>
    rw [hmove.loopDispatches]
    unfold racePhase
    split <;> rfl
  | win startedAt h hphase usage hcollect =>
    have hwin (target : ExecutionTarget) (accountId : String) (response : AiResponse) :
        (winOutcome target accountId response usage).2.filterMap Effect.dispatched = [] := by
      cases usage <;> rfl
    unfold Switchback.loopDispatches
    rw [List.filterMap_append, List.filterMap_append, cancelRacer_dispatched, hwin]
    rfl
  | answered a => split <;> rfl
  | fallOver h hfallback => cases h <;> rfl
  | fail h hfallback => cases h <;> rfl
  | _ => rfl

/-! ### Errors that end the request -/

/-- The upstream error that an answer means where the loop waits. -/
def loopError (c : Call) : Phase → Answer → Option AdapterError
  | .executing _, .executed (.error error) => some error
  | .precommitting _, .firstEvent item =>
      match precommitStream item with
      | .error error => some error
      | .ok _ => none
  | .collecting _, .collected items _ =>
      match collectResponse c.fromStr items c.req.id c.req.model c.snap.maxResponseBytes with
      | .error error => some error
      | .ok _ => none
  | _, _ => none

theorem fails_of_loopError (h : loopError c phase answer = some error)
    (hfallback : error.shouldFallback = false) : ∃ a, Fails c phase answer a error := by
  unfold loopError at h
  split at h
  · next a error' =>
    cases h
    -- no class that ends the request is retryable
    refine ⟨a, .executed a error (Or.inr ?_)⟩
    unfold AdapterError.shouldFallback at hfallback
    generalize error.errorClass = errorClass at hfallback ⊢
    cases errorClass <;> first | rfl | cases hfallback
  · next a item =>
    split at h
    · next herror =>
      cases h
      exact ⟨a, .firstEvent a item error herror⟩
    · cases h
  · next a items usage =>
    split at h
    · next herror =>
      cases h
      exact ⟨a, .collected a items usage error herror⟩
    · cases h
  · cases h

theorem awaits_of_loopError (h : loopError c phase answer = some error)
    (now : ℕ) : phase.awaits now answer = true := by
  unfold loopError at h
  split at h
  · rfl
  · rfl
  · rfl
  · cases h

theorem Fails.error_unique {a' : Attempt} {error' : AdapterError}
    (h : Fails c phase answer a error) (h' : Fails c phase answer a' error') : error = error' := by
  cases h with
  | executed _ _ _ =>
    cases h'
    rfl
  | firstEvent _ _ _ herror =>
    cases h' with
    | firstEvent _ _ _ herror' => exact Except.error.inj (herror.symm.trans herror')
  | collected _ _ _ _ herror =>
    cases h' with
    | collected _ _ _ _ herror' => exact Except.error.inj (herror.symm.trans herror')

theorem ExecMove.done_of_fails
    (h : ExecMove c r e i phase answer phase' effects) (hfails : Fails c phase answer a error)
    (hfallback : error.shouldFallback = false) :
    phase' = .done (.error (.upstream error c.summary)) := by
  cases h with
  | retry a error until_ hleft hretryable =>
    cases hfails with
    | executed _ _ hlast =>
      rcases hlast with hlast | hlast
      · omega
      · rw [hretryable] at hlast
        cases hlast
  | fallOver h hfall =>
    rw [h.error_unique hfails, hfallback] at hfall
    cases hfall
  | fail h hfall => rw [h.error_unique hfails]
  | commit a h =>
    cases hfails with
    | firstEvent _ _ _ herror => cases herror.symm.trans h
  | collect a h =>
    cases hfails with
    | collected _ _ _ _ herror => cases herror.symm.trans h
  | unrecorded a h message error =>
    cases hfails with
    | collected _ _ _ _ herror => cases herror.symm.trans h
  | _ => cases hfails

/-- No move from a committed phase calls an adapter or goes back. -/
theorem ExecMove.committed (h : ExecMove c r e i phase answer phase' effects)
    (hphase : phase.isCommitted = true) :
    phase'.isCommitted = true ∧ effects.filterMap Effect.dispatched = [] := by
  cases h with
  | deliver a guard guard' item h herror => exact ⟨rfl, rfl⟩
  | streamFail a guard item h => exact ⟨rfl, rfl⟩
  | streamEnd a guard item usage h => exact ⟨rfl, rfl⟩
  | drop a guard => exact ⟨rfl, rfl⟩
  | fallOver h hfallback => cases h <;> cases hphase
  | fail h hfallback => cases h <;> cases hphase
  | _ => cases hphase

end Passes

/-! ### Every run -/

section Runs

variable (c : Call) (events : List Event)

/-- The accounts that a run selects. -/
def selections : List Pass :=
  (trail c events).filterMap fun v => v.1.phase.selects (step c v.1 v.2).1.phase

/-- The accounts that a run calls outside the race. -/
def loopCalls : List Pass :=
  (trail c events).filterMap fun v => v.1.phase.calls (step c v.1 v.2).1.phase

/-- The accounts whose calls fail transiently. -/
def transientFailures : List Pass :=
  (trail c events).filterMap fun v => v.1.phase.failsTransiently v.2.input

theorem Phase.selects_self (phase : Phase) : phase.selects phase = none := by
  cases phase <;> rfl

theorem Phase.calls_self (phase : Phase) : phase.calls phase = none := by
  cases phase <;> rfl

theorem selections_nodup :
    (selections c events).Nodup ∧
      ∀ p ∈ selections c events, p.target :: p.rest <:+ c.candidates := by
  -- the once rule: selectable before the selection, never after it
  refine @Machine.visited_nodup _ _ (fun s e => (step c s e).1) Pass _
    (fun p s => s.phase.selectable c p) ?_ ?_ (start c) events
  · intro s e p hp
    rcases step_cases c s e with ⟨hphase, -⟩ | ⟨i, answer, -, hmove⟩
    · rwa [hphase] at hp
    · exact hmove.selectable_of hp
  · intro s e p hp
    rcases step_cases c s e with ⟨hphase, -⟩ | ⟨i, answer, -, hmove⟩
    · dsimp only at hp
      rw [hphase, Phase.selects_self] at hp
      cases hp
    · exact hmove.selectable_of_selects hp

theorem loopCalls_count_le (p : Pass) :
    (loopCalls c events).count p ≤
      (c.snap.retry.maxRetries + 1) * (selections c events).count p := by
  have hpaid := @Machine.foldl_potential _ _ (fun s e => (step c s e).1) (fun _ => True)
    (fun s => s.phase.callsLeft c p)
    (fun s e => (s.phase.calls (step c s e).1.phase).toList.count p)
    (fun s e => (c.snap.retry.maxRetries + 1) *
      (s.phase.selects (step c s e).1.phase).toList.count p) (fun _ _ _ => trivial) ?_ (start c)
    trivial events
  -- a selection pays for all calls of the account; nothing is owed at the start
  · rw [List.sum_map_mul_left] at hpaid
    unfold loopCalls selections
    rw [Machine.count_filterMap_eq_sum, Machine.count_filterMap_eq_sum]
    exact (Nat.le_add_right _ _).trans (hpaid.trans_eq (Nat.zero_add _))
  · intro s e _
    rcases step_cases c s e with ⟨hphase, -⟩ | ⟨i, answer, -, hmove⟩
    · rw [hphase, Phase.calls_self]
      simp
    · exact hmove.callsLeft_le p

theorem loopCalls_count_le_add (p : Pass) :
    (loopCalls c events).count p ≤
      (selections c events).count p + (transientFailures c events).count p := by
  have hpaid := @Machine.foldl_potential _ _ (fun s e => (step c s e).1) (fun _ => True)
    (fun s => s.phase.callOwed p)
    (fun s e => (s.phase.calls (step c s e).1.phase).toList.count p)
    (fun s e => (s.phase.selects (step c s e).1.phase).toList.count p +
      (s.phase.failsTransiently e.input).toList.count p) (fun _ _ _ => trivial) ?_ (start c)
    trivial events
  · rw [List.sum_map_add] at hpaid
    unfold loopCalls selections transientFailures
    rw [Machine.count_filterMap_eq_sum, Machine.count_filterMap_eq_sum,
      Machine.count_filterMap_eq_sum]
    exact (Nat.le_add_right _ _).trans (hpaid.trans_eq (Nat.zero_add _))
  · intro s e _
    rcases step_cases c s e with ⟨hphase, -⟩ | ⟨i, answer, he, hmove⟩
    · rw [hphase, Phase.calls_self]
      simp
    · rw [he]
      exact hmove.callOwed_le p

theorem dispatches_map_key :
    ((dispatches c events).filter fun d => !d.hedged).map Dispatch.key =
      (loopCalls c events).map Pass.key := by
  have hstep (v : ExecState × Event) :
      (loopDispatches (step c v.1 v.2).2).map Dispatch.key =
        (v.1.phase.calls (step c v.1 v.2).1.phase).toList.map Pass.key := by
    rcases step_cases c v.1 v.2 with ⟨hphase, heffects⟩ | ⟨i, answer, -, hmove⟩
    · rw [hphase, heffects, Phase.calls_self]
      rfl
    · exact hmove.loopDispatches
  unfold dispatches execute loopCalls
  rw [Machine.run_snd, List.filterMap_flatMap, List.filter_flatMap, List.map_flatMap,
    List.filterMap_eq_flatMap_toList, List.map_flatMap]
  exact List.flatMap_congr fun v _ => hstep v

/-- Once the stream is with the client, or the request is answered, no adapter is called. -/
theorem dispatches_of_committed (after : List Event)
    (h : (execute c events).1.phase.isCommitted = true) :
    dispatches c (events ++ after) = dispatches c events := by
  have hrun := @Machine.run_forall _ _ _ (step c) (fun s => s.phase.isCommitted = true)
    (fun o => o.dispatched = none) ?_ _ h after
  · unfold dispatches execute
    rw [Machine.run_append, List.filterMap_append]
    have hnone := List.filterMap_eq_nil_iff.2 hrun.2
    unfold execute at hnone
    rw [hnone, List.append_nil]
  · intro s e hs
    rcases step_cases c s e with ⟨hphase, heffects⟩ | ⟨i, answer, -, hmove⟩
    · rw [hphase, heffects]
      exact ⟨hs, fun o ho => by cases ho⟩
    · obtain ⟨hphase, heffects⟩ := hmove.committed hs
      exact ⟨hphase, List.filterMap_eq_nil_iff.1 heffects⟩

/-- What holds of the loop in every run. -/
structure BoundedFallback : Prop where
  /-- The loop ends: it gets fewer answers than the targets of the plan allow for. -/
  ends : (execute c events).1.phase.inLoop = true →
    loopSteps c events < targetsSteps c c.candidates
  /-- Until then it waits for some answer. -/
  waits : (execute c events).1.phase.inLoop = true →
    ∃ answer t, ∀ now, t ≤ now → (execute c events).1.phase.awaits now answer = true
  /-- In the pass over a target of the plan no account is selected twice. -/
  selectedOnce : (selections c events).Nodup
  planned : ∀ p ∈ selections c events, p.target :: p.rest <:+ c.candidates
  /-- The adapter calls outside the race are those of selected accounts. -/
  called : ((dispatches c events).filter fun d => !d.hedged).map Dispatch.key =
    (loopCalls c events).map Pass.key
  selected : ∀ p ∈ loopCalls c events, p ∈ selections c events
  /-- A selected account is called at most once more for each retry. -/
  callsBounded : ∀ p, (loopCalls c events).count p ≤ 1 + c.snap.retry.maxRetries
  /-- Beyond the first call, there is a transient failure for each. -/
  retried : ∀ p, (loopCalls c events).count p ≤ 1 + (transientFailures c events).count p
  /-- An error that does not fall over ends the request. -/
  ended : ∀ v ∈ trail c events, ∀ i answer error, v.2.input = .own i answer →
    loopError c v.1.phase answer = some error → error.shouldFallback = false →
    (step c v.1 v.2).1.phase = .done (.error (.upstream error c.summary))
  /-- After the first event is committed, or the request answered, no adapter is called. -/
  committed : ∀ before after, events = before ++ after →
    (execute c before).1.phase.isCommitted = true → dispatches c events = dispatches c before

/-- **Fallback is bounded and does not repeat itself.** -/
theorem fallback_bounded : BoundedFallback c events where
  ends := by
    intro hloop
    have hle := loopSteps_le c events
    have hpos : 0 < loopLeft c (execute c events).1.phase := loopLeft_pos hloop
    omega
  waits := Phase.exists_awaits
  selectedOnce := (selections_nodup c events).1
  planned := (selections_nodup c events).2
  called := dispatches_map_key c events
  selected := by
    intro p hp
    have hle := loopCalls_count_le c events p
    have hpos := List.count_pos_iff.2 hp
    refine List.count_pos_iff.1 (Nat.pos_of_ne_zero fun hzero => ?_)
    rw [hzero] at hle
    omega
  callsBounded := by
    intro p
    have hle := loopCalls_count_le c events p
    have hone := List.nodup_iff_count_le_one.1 (selections_nodup c events).1 p
    have hmul := Nat.mul_le_mul_left (c.snap.retry.maxRetries + 1) hone
    omega
  retried := by
    intro p
    have hle := loopCalls_count_le_add c events p
    have hone := List.nodup_iff_count_le_one.1 (selections_nodup c events).1 p
    omega
  ended := by
    intro v _ i answer error he herror hfallback
    obtain ⟨a, hfails⟩ := fails_of_loopError herror hfallback
    exact (awaited_move he (awaits_of_loopError herror _)).done_of_fails hfails hfallback
  committed := by
    rintro before after rfl hcommitted
    exact dispatches_of_committed c before after hcommitted

end Runs

end Switchback
