import Switchback.Runtime.Execute

/-!
# What is dispatched

The invariant of the execution, and what it says of every adapter call: from the loop, an account
of the allow-list; from the race, some account of the provider of a raced candidate.
-/

namespace Switchback

open Lib

/-- The accounts that are configured for a provider. -/
def Call.accounts (c : Call) (providerId : String) : List Account :=
  ((c.snap.providers.get providerId).map ProviderAccounts.accounts).getD []

/-- The account is in the allow-list, if there is one. -/
def Call.Allows (c : Call) (providerId accountId : String) : Prop :=
  ∀ allowed, c.allowedAccounts providerId = some allowed → accountId ∈ allowed

/-! ### The invariant -/

/-- The resolver is that of the snapshot; a circuit that opens for no time is not open. -/
structure ResolverOk (c : Call) (t : ℕ) (r : CredentialResolver) : Prop where
  providers : r.providers = c.snap.providers
  enabled : r.breaker.enabled = c.snap.circuitBreaker.enabled
  openFor : r.breaker.openFor = secs c.snap.circuitBreaker.openSecs
  elapsed : c.snap.circuitBreaker.openSecs = 0 → r.breaker.Elapsed t

/-- A racer holds an account of its provider. -/
structure RacerHolds (c : Call) (target : ExecutionTarget) (accountId : String)
    (lease : CredentialLease) : Prop where
  adapter : (c.snap.adapter target.providerId).isSome
  account : ∃ a ∈ c.accounts target.providerId, a.id = accountId
  leaseOf : lease.providerAccountId = accountId

def RacerOk (c : Call) (racer : Racer) : Prop :=
  racer.target ∈ c.raced ∧
    match racer.phase with
    | .leasing accountId lease => RacerHolds c racer.target accountId lease
    | _ => True

def WorkOk (c : Call) (work : Work) : Prop :=
  work.allowedAccounts = c.allowedAccounts work.target.providerId

structure Holds (c : Call) (work : Work) (accountId : String) (lease : CredentialLease) :
    Prop where
  workOk : WorkOk c work
  allows : c.Allows work.target.providerId accountId
  leaseOf : lease.providerAccountId = accountId

def Attempt.Ok (c : Call) (a : Attempt) : Prop := Holds c a.work a.accountId a.lease

def PhaseOk (c : Call) : Phase → Prop
  | .planned | .targets _ | .done _ => True
  | .racing _ racers => c.hedges = true ∧ ∀ racer ∈ racers, RacerOk c racer
  | .selecting work => WorkOk c work
  | .leasing work accountId lease => Holds c work accountId lease
  | .executing a | .backingOff a _ | .precommitting a | .collecting a | .streaming a _ => a.Ok c

structure ExecOk (c : Call) (t : ℕ) (s : ExecState) : Prop where
  resolver : ResolverOk c t s.resolver
  phase : PhaseOk c s.phase

structure DispatchOk (c : Call) (d : Dispatch) : Prop where
  lease : d.lease.providerAccountId = d.accountId
  allows : d.hedged = false → c.Allows d.target.providerId d.accountId
  hedges : d.hedged = true → c.hedges = true ∧ d.target ∈ c.raced ∧
    (c.snap.adapter d.target.providerId).isSome ∧
    ∃ a ∈ c.accounts d.target.providerId, a.id = d.accountId
  enabled : d.breaker.enabled = c.snap.circuitBreaker.enabled
  closed : c.snap.circuitBreaker.openSecs = 0 → ∀ p, ¬ d.breaker.isOpen p d.now

def EffectOk (c : Call) (o : Effect) : Prop := ∀ d, o.dispatched = some d → DispatchOk c d

/-- A step's result keeps the invariant and its adapter calls are right. -/
def ResultOk (c : Call) (t : ℕ) (result : ExecState × List Effect) : Prop :=
  ExecOk c t result.1 ∧ ∀ o ∈ result.2, EffectOk c o

/-! ### The resolver -/

namespace ResolverOk

variable {c : Call} {t : ℕ} {r : CredentialResolver}

theorem mono {t' : ℕ} (h : ResolverOk c t r) (ht : t ≤ t') : ResolverOk c t' r :=
  ⟨h.providers, h.enabled, h.openFor, fun h0 => (h.elapsed h0).mono ht⟩

theorem accountsOf (h : ResolverOk c t r) (providerId : String) :
    r.accountsOf providerId = c.accounts providerId := by
  unfold CredentialResolver.accountsOf Call.accounts
  rw [h.providers]

theorem resolve (h : ResolverOk c t r) (providerId model : String) (exclude : List String)
    (sessionId : Option String) (allowed : Option (List String)) (now : ℕ) :
    ResolverOk c t
      (r.resolveWithSessionAllowed providerId model exclude sessionId allowed now).2 := by
  obtain ⟨hp, hb, -⟩ := r.resolve_frame providerId model exclude sessionId allowed now
  refine ⟨hp.trans h.providers, ?_, ?_, ?_⟩
  · rw [hb]
    exact h.enabled
  · rw [hb]
    exact h.openFor
  · rw [hb]
    exact h.elapsed

theorem reportFailure (h : ResolverOk c t r) (providerId accountId model : String)
    (errorClass : ErrorClass) (now : ℕ) :
    ResolverOk c t (r.reportFailure providerId accountId model errorClass now) :=
  ⟨h.providers, h.enabled, h.openFor, h.elapsed⟩

theorem reportSuccess (h : ResolverOk c t r) (providerId accountId : String) :
    ResolverOk c t (r.reportSuccess providerId accountId) :=
  ⟨h.providers, h.enabled, h.openFor, h.elapsed⟩

theorem circuitRecord (h : ResolverOk c t r) (providerId : String) (ok : Bool) :
    ResolverOk c t (r.circuitRecord providerId ok t) := by
  refine ⟨h.providers, ?_, ?_, fun h0 => ?_⟩
  · exact (r.breaker.record_enabled providerId ok t).trans h.enabled
  · exact (r.breaker.record_openFor providerId ok t).trans h.openFor
  · have hopen : r.breaker.openFor = 0 := by
      rw [h.openFor, h0]
      exact Nat.zero_mul _
    exact (h.elapsed h0).record hopen providerId ok

theorem circuitAllows (h : ResolverOk c t r) (providerId : String) :
    ResolverOk c t (r.circuitAllows providerId t).2 :=
  ⟨h.providers, (r.breaker.allows_enabled providerId t).trans h.enabled,
    (r.breaker.allows_openFor providerId t).trans h.openFor,
    fun h0 => (h.elapsed h0).allows providerId⟩

/-- A call of another request. -/
theorem apply (h : ResolverOk c t r) (op : ResolverOp) : ResolverOk c t (r.apply t op) := by
  cases op with
  | resolve providerId model exclude sessionId allowed =>
    exact h.resolve providerId model exclude sessionId allowed t
  | reportFailure providerId accountId model errorClass =>
    exact h.reportFailure providerId accountId model errorClass t
  | reportSuccess providerId accountId => exact h.reportSuccess providerId accountId
  | resetLockout providerId accountId model =>
    show ResolverOk c t (r.resetLockout providerId accountId model).2
    unfold CredentialResolver.resetLockout
    split
    · exact ⟨h.providers, h.enabled, h.openFor, h.elapsed⟩
    · exact h
  | circuitAllows providerId => exact h.circuitAllows providerId
  | circuitRecord providerId ok => exact h.circuitRecord providerId ok

theorem finishBreaker (h : ResolverOk c t r) (providerId : String) (outcome : FinishOutcome) :
    ResolverOk c t (finishBreaker r providerId t outcome) := by
  cases outcome with
  | ok finishReason => exact h.circuitRecord providerId true
  | failed errorClass => exact h.circuitRecord providerId false
  | cancelled => exact h

theorem failAttempt (h : ResolverOk c t r) (target : ExecutionTarget) (accountId : String)
    (errorClass : ErrorClass) : ResolverOk c t (failAttempt r target accountId errorClass t).1 :=
  (h.reportFailure target.providerId accountId target.model errorClass t).finishBreaker
    target.providerId (.failed errorClass)

theorem succeedAttempt (h : ResolverOk c t r) (target : ExecutionTarget) (accountId : String)
    (finishReason : FinishReason) :
    ResolverOk c t (succeedAttempt r target accountId finishReason t).1 :=
  (h.reportSuccess target.providerId accountId).finishBreaker target.providerId
    (.ok finishReason)

end ResolverOk

/-! ### Effects without an adapter call -/

section

variable {c : Call}

theorem EffectOk.of_none {o : Effect} (h : o.dispatched = none) : EffectOk c o := by
  intro d hd
  rw [h] at hd
  exact absurd hd (by simp)

theorem effectOk_failAttempt (r : CredentialResolver) (target : ExecutionTarget)
    (accountId : String) (errorClass : ErrorClass) (now : ℕ) :
    ∀ o ∈ (failAttempt r target accountId errorClass now).2, EffectOk c o := by
  intro o ho
  rw [List.mem_singleton.mp ho]
  exact .of_none rfl

theorem effectOk_succeedAttempt (r : CredentialResolver) (target : ExecutionTarget)
    (accountId : String) (finishReason : FinishReason) (now : ℕ) :
    ∀ o ∈ (succeedAttempt r target accountId finishReason now).2, EffectOk c o := by
  intro o ho
  rw [List.mem_singleton.mp ho]
  exact .of_none rfl

theorem effectOk_append {a b : List Effect} (ha : ∀ o ∈ a, EffectOk c o)
    (hb : ∀ o ∈ b, EffectOk c o) : ∀ o ∈ a ++ b, EffectOk c o := by
  intro o ho
  rcases List.mem_append.mp ho with ho | ho
  · exact ha o ho
  · exact hb o ho

theorem effectOk_cancelRacer (racers : List Racer) :
    ∀ o ∈ racers.flatMap cancelRacer, EffectOk c o := by
  intro o ho
  obtain ⟨racer, -, ho⟩ := List.mem_flatMap.mp ho
  unfold cancelRacer at ho
  split at ho
  · rw [List.mem_singleton.mp ho]
    exact .of_none rfl
  · rw [List.mem_singleton.mp ho]
    exact .of_none rfl
  · exact absurd ho (by simp)

theorem effectOk_winOutcome (target : ExecutionTarget) (accountId : String)
    (response : AiResponse) (usage : Except String Unit) :
    ∀ o ∈ (winOutcome target accountId response usage).2, EffectOk c o := by
  intro o ho
  unfold winOutcome at ho
  split at ho
  · rw [List.mem_singleton.mp ho]
    exact .of_none rfl
  · rcases List.mem_cons.mp ho with rfl | ho
    · exact .of_none rfl
    · rw [List.mem_singleton.mp ho]
      exact .of_none rfl

end

theorem freshLease_account {accountId : String} {lease lease' : CredentialLease} {mint : Mint}
    (hlease : lease.providerAccountId = accountId)
    (h : freshLease accountId lease mint = .ok lease') : lease'.providerAccountId = accountId := by
  cases mint with
  | static =>
    injection h with h
    rw [← h, hlease]
  | minted result =>
    cases result with
    | error err => exact absurd h (by simp [freshLease, Except.map])
    | ok token =>
      injection h with h
      rw [← h]
      rfl

theorem racerStep_ok {c : Call} {r : CredentialResolver} {e : Event} (h : ResolverOk c e.now r)
    (hhedges : c.hedges = true) {racer : Racer} (hracer : RacerOk c racer) (startedAt i : ℕ)
    (answer : Answer) :
    (∀ phase, (racerStep c r startedAt i racer e answer).1 = .going phase →
        RacerOk c { racer with phase := phase }) ∧
      ResolverOk c e.now (racerStep c r startedAt i racer e answer).2.1 ∧
      ∀ o ∈ (racerStep c r startedAt i racer e answer).2.2, EffectOk c o := by
  obtain ⟨hmem, hphase⟩ := hracer
  have hsilent : ∀ o ∈ ([] : List Effect), EffectOk c o := by simp
  have hlost : RacerOk c { racer with phase := .lost } := ⟨hmem, trivial⟩
  unfold racerStep
  dsimp only
  split
  · -- waiting for its turn
    split
    · exact ⟨fun phase hp => by injection hp with hp; subst hp; exact ⟨hmem, trivial⟩, h, hsilent⟩
    · cases hadapter : c.snap.adapter racer.target.providerId with
      | none => exact ⟨fun phase hp => by injection hp with hp; subst hp; exact hlost, h, hsilent⟩
      | some adapter =>
        have hr := h.resolve racer.target.providerId racer.target.model []
          (sessionAffinityKey c.req) none e.now
        have hsel := @CredentialResolver.resolve_selected r racer.target.providerId
          racer.target.model [] (sessionAffinityKey c.req) none e.now
        unfold CredentialResolver.resolveWithSession
        generalize r.resolveWithSessionAllowed racer.target.providerId racer.target.model []
          (sessionAffinityKey c.req) none e.now = result at hr hsel ⊢
        obtain ⟨outcome, r'⟩ := result
        cases outcome with
        | selected accountId lease =>
          obtain ⟨a, ha, hid, hlease, -⟩ := hsel rfl
          refine ⟨fun phase hp => ?_, hr, hsilent⟩
          injection hp with hp
          subst hp
          refine ⟨hmem, ⟨by simp [hadapter], ⟨a, ?_, hid⟩, ?_⟩⟩
          · rw [← h.accountsOf]
            exact ha
          · rw [← hlease, ← hid]
            rfl
        | allUnavailable retryAfter =>
          exact ⟨fun phase hp => by injection hp with hp; subst hp; exact hlost, hr, hsilent⟩
        | noAccounts =>
          exact ⟨fun phase hp => by injection hp with hp; subst hp; exact hlost, hr, hsilent⟩
  · -- the lease is fresh: the adapter is called
    next accountId lease mint hp =>
    rw [hp] at hphase
    cases hfresh : freshLease accountId lease mint with
    | error err =>
      exact ⟨fun phase hp => by injection hp with hp; subst hp; exact hlost, h, hsilent⟩
    | ok lease' =>
      refine ⟨fun phase hp => by injection hp with hp; subst hp; exact ⟨hmem, trivial⟩, h, ?_⟩
      intro o ho d hd
      rw [List.mem_singleton.mp ho] at hd
      injection hd with hd
      rw [← hd]
      exact ⟨freshLease_account hphase.leaseOf hfresh, fun hf => absurd hf (by simp),
        fun _ => ⟨hhedges, hmem, hphase.adapter, hphase.account⟩, h.enabled,
        fun h0 p => (h.elapsed h0).not_isOpen p⟩
  · -- the adapter answered
    split
    · next accountId lease hp error =>
      exact ⟨fun phase hp => by injection hp with hp; subst hp; exact hlost,
        h.failAttempt _ _ _, effectOk_failAttempt _ _ _ _ _⟩
    · exact ⟨fun phase hp => by injection hp with hp; subst hp; exact ⟨hmem, trivial⟩, h, hsilent⟩
  · -- the stream ended
    split
    · exact ⟨fun phase hp => by injection hp with hp; subst hp; exact hlost,
        h.failAttempt _ _ _, effectOk_failAttempt _ _ _ _ _⟩
    · exact ⟨fun phase hp => absurd hp (by simp), h.succeedAttempt _ _ _,
        effectOk_succeedAttempt _ _ _ _ _⟩
  · refine ⟨fun phase hp => ?_, h, hsilent⟩
    injection hp with hp
    subst hp
    exact ⟨hmem, hphase⟩

theorem raceStep_ok {c : Call} {s : ExecState} {e : Event} (h : ResolverOk c e.now s.resolver)
    {startedAt : ℕ} {racers : List Racer}
    (hphase : PhaseOk c s.phase) (hs : s.phase = .racing startedAt racers) (i : ℕ)
    (answer : Answer) : ResultOk c e.now (raceStep c s startedAt racers e i answer) := by
  have hracing := hphase
  rw [hs] at hracing
  obtain ⟨hhedges, hracers⟩ := hracing
  unfold raceStep
  cases hi : racers[i]? with
  | none => exact ⟨⟨h, hphase⟩, by simp⟩
  | some racer =>
    have hmem : racer ∈ racers := List.mem_of_getElem? hi
    obtain ⟨hgoing, hr, heffects⟩ := racerStep_ok h hhedges (hracers racer hmem) startedAt i answer
    dsimp only
    generalize racerStep c s.resolver startedAt i racer e answer = result at *
    obtain ⟨raced, r, effects⟩ := result
    cases raced with
    | going phase =>
      refine ⟨⟨hr, ?_⟩, heffects⟩
      dsimp only
      split
      · trivial
      · refine ⟨hhedges, fun racer' hm => ?_⟩
        rcases List.mem_or_eq_of_mem_set hm with hm | rfl
        · exact hracers racer' hm
        · exact hgoing phase rfl
    | won accountId response =>
      refine ⟨⟨hr, trivial⟩, ?_⟩
      exact effectOk_append (effectOk_append heffects (effectOk_cancelRacer _))
        (effectOk_winOutcome _ _ _ _)

/-! ### The targets one after the other -/

section Sequential

variable {c : Call} {s : ExecState} {e : Event}

theorem effectOk_nil : ∀ o ∈ ([] : List Effect), EffectOk c o := by simp

theorem effectOk_recordTrace (status : ℕ) (streamed : Bool) :
    ∀ o ∈ [Effect.recordTrace status streamed], EffectOk c o := by
  intro o ho
  rw [List.mem_singleton.mp ho]
  exact .of_none rfl

theorem effectOk_recorded (target : ExecutionTarget) (accountId : String) (usage : Usage)
    (status : ℕ) (streamed : Bool) :
    ∀ o ∈ [Effect.recordUsage target accountId usage, .recordTrace status streamed],
      EffectOk c o := by
  intro o ho
  rcases List.mem_cons.mp ho with rfl | ho
  · exact .of_none rfl
  · exact effectOk_recordTrace status streamed o ho

theorem failRequest_ok {t : ℕ} (h : ResolverOk c t s.resolver) (error : ExecError) :
    ResultOk c t (failRequest s error) :=
  ⟨⟨h, trivial⟩, effectOk_recordTrace _ _⟩

theorem exhausted_ok {t : ℕ} (h : ResolverOk c t s.resolver) : ResultOk c t (exhausted c s) := by
  unfold exhausted
  split
  · exact failRequest_ok h _
  · split
    · exact failRequest_ok h _
    · exact failRequest_ok h _

theorem startTarget_ok (h : ResolverOk c e.now s.resolver) (target : ExecutionTarget)
    (rest : List ExecutionTarget) : ResultOk c e.now (startTarget c s target rest e) := by
  have hr := h.circuitAllows target.providerId
  unfold startTarget
  split
  · exact ⟨⟨h, trivial⟩, effectOk_nil⟩
  · generalize s.resolver.circuitAllows target.providerId e.now = result at hr ⊢
    obtain ⟨ok, r⟩ := result
    cases ok with
    | false => exact ⟨⟨hr, trivial⟩, effectOk_nil⟩
    | true =>
      dsimp only
      split
      · exact ⟨⟨hr, trivial⟩, effectOk_recordTrace _ _⟩
      · exact ⟨⟨hr, trivial⟩, effectOk_nil⟩
      · exact ⟨⟨hr, rfl⟩, effectOk_nil⟩

theorem selectAccount_ok {t : ℕ} (h : ResolverOk c t s.resolver) {work : Work}
    (hwork : WorkOk c work) (now : ℕ) : ResultOk c t (selectAccount c s work now) := by
  have hr := h.resolve work.target.providerId work.target.model work.triedAccounts
    (sessionAffinityKey c.req) work.allowedAccounts now
  have hsel := @CredentialResolver.resolve_selected s.resolver work.target.providerId
    work.target.model work.triedAccounts (sessionAffinityKey c.req) work.allowedAccounts now
  unfold selectAccount
  generalize s.resolver.resolveWithSessionAllowed work.target.providerId work.target.model
    work.triedAccounts (sessionAffinityKey c.req) work.allowedAccounts now = result at hr hsel ⊢
  obtain ⟨outcome, r⟩ := result
  cases outcome with
  | selected accountId lease =>
    obtain ⟨a, -, hid, hlease, hc⟩ := hsel rfl
    refine ⟨⟨hr, hwork, fun allowed hallowed => ?_, ?_⟩, effectOk_nil⟩
    · rw [← hwork] at hallowed
      unfold CredentialResolver.isCandidate at hc
      rw [hallowed, hid] at hc
      simp only [Bool.and_eq_true, Option.elim_some, List.contains_iff_mem] at hc
      exact hc.1.2
    · rw [← hlease, ← hid]
      rfl
  | allUnavailable retryAfter => exact ⟨⟨hr, trivial⟩, effectOk_nil⟩
  | noAccounts => exact ⟨⟨hr, trivial⟩, effectOk_nil⟩

theorem dispatch_ok {target : ExecutionTarget} {accountId : String} {lease : CredentialLease}
    (h : ResolverOk c e.now s.resolver) (hallows : c.Allows target.providerId accountId)
    (hlease : lease.providerAccountId = accountId) :
    ∀ o ∈ [dispatch false target accountId lease s.resolver e], EffectOk c o := by
  intro o ho d hd
  rw [List.mem_singleton.mp ho] at hd
  injection hd with hd
  rw [← hd]
  exact ⟨hlease, fun _ => hallows, fun hf => absurd hf (by simp), h.enabled,
    fun h0 p => (h.elapsed h0).not_isOpen p⟩

theorem leaseAccount_ok (h : ResolverOk c e.now s.resolver) {work : Work} {accountId : String}
    {lease : CredentialLease} (hholds : Holds c work accountId lease) (mint : Mint) :
    ResultOk c e.now (leaseAccount c s work accountId lease mint e) := by
  unfold leaseAccount
  cases hfresh : freshLease accountId lease mint with
  | error err => exact ⟨⟨h.reportFailure _ _ _ _ _, hholds.workOk⟩, effectOk_nil⟩
  | ok lease' =>
    have hlease := freshLease_account hholds.leaseOf hfresh
    dsimp only
    split
    · exact failRequest_ok h _
    · exact ⟨⟨h, hholds.workOk, hholds.allows, hlease⟩, dispatch_ok h hholds.allows hlease⟩

variable {a : Attempt}

theorem attemptFailed_ok {t : ℕ} (h : ResolverOk c t s.resolver) (ha : a.Ok c)
    (error : AdapterError) : ResultOk c t (attemptFailed c s a error t) := by
  have hr := h.failAttempt a.work.target a.accountId error.errorClass
  have heffects := @effectOk_failAttempt c s.resolver a.work.target a.accountId error.errorClass t
  unfold attemptFailed
  dsimp only
  split
  · exact ⟨⟨hr, ha.workOk⟩, heffects⟩
  · exact ⟨⟨hr, trivial⟩, effectOk_append heffects (effectOk_recordTrace _ _)⟩

theorem adapterAnswered_ok {t : ℕ} (h : ResolverOk c t s.resolver) (ha : a.Ok c)
    (result : Except AdapterError Unit) : ResultOk c t (adapterAnswered c s a result t) := by
  unfold adapterAnswered
  split
  · next error =>
    split
    · exact attemptFailed_ok h ha _
    · have hr := h.finishBreaker a.work.target.providerId (.failed error.errorClass)
      refine ⟨⟨hr, ha⟩, fun o ho => ?_⟩
      rw [List.mem_singleton.mp ho]
      exact .of_none rfl
  · refine ⟨⟨h, ?_⟩, effectOk_nil⟩
    dsimp only
    split
    · exact ha
    · exact ha

theorem attemptCollected_ok {t : ℕ} (h : ResolverOk c t s.resolver) (ha : a.Ok c)
    (items : List StreamItem) (usage : Except String Unit) :
    ResultOk c t (attemptCollected c s a items usage t) := by
  unfold attemptCollected
  split
  · exact attemptFailed_ok h ha _
  · next response _ =>
    have hr := h.succeedAttempt a.work.target a.accountId response.finishReason
    have heffects :=
      @effectOk_succeedAttempt c s.resolver a.work.target a.accountId response.finishReason t
    dsimp only
    split
    · exact ⟨⟨hr, trivial⟩, effectOk_append heffects (effectOk_recordTrace _ _)⟩
    · exact ⟨⟨hr, trivial⟩, effectOk_append heffects (effectOk_recorded _ _ _ _ _)⟩

theorem streamFailed_ok {t : ℕ} (h : ResolverOk c t s.resolver) (a : Attempt)
    (errorClass : ErrorClass) : ResultOk c t (streamFailed s a errorClass t) :=
  ⟨⟨h.failAttempt a.work.target a.accountId errorClass, trivial⟩,
    effectOk_append (effectOk_failAttempt s.resolver a.work.target a.accountId errorClass t)
      (effectOk_recordTrace _ _)⟩

theorem deliver_ok {t : ℕ} (h : ResolverOk c t s.resolver) (ha : a.Ok c)
    (guard : FinishGuard) (item : Option StreamItem) : ResultOk c t (deliver s a guard t item) := by
  unfold deliver
  split
  · exact streamFailed_ok h a _
  · exact streamFailed_ok h a _
  · exact ⟨⟨h, ha⟩, effectOk_nil⟩
  · exact ⟨⟨h, ha⟩, effectOk_nil⟩
  · exact ⟨⟨h, ha⟩, effectOk_nil⟩
  · have hr := h.succeedAttempt a.work.target a.accountId (guard.finishReason.getD .stop)
    have heffects := @effectOk_succeedAttempt c s.resolver a.work.target a.accountId
      (guard.finishReason.getD .stop) t
    exact ⟨⟨hr, trivial⟩, effectOk_append heffects (effectOk_recorded _ _ _ _ _)⟩

theorem streamStep_ok {t : ℕ} (h : ResolverOk c t s.resolver) (ha : a.Ok c)
    {guard : FinishGuard} (hs : s.phase = .streaming a guard) (answer : Answer) :
    ResultOk c t (streamStep s a guard t answer) := by
  have hsame : ResultOk c t (s, []) := ⟨⟨h, by rw [hs]; exact ha⟩, effectOk_nil⟩
  unfold streamStep
  split
  · split
    · exact deliver_ok h ha _ _
    · exact deliver_ok h ha _ _
  · refine ⟨⟨h, trivial⟩, fun o ho => ?_⟩
    rcases List.mem_cons.mp ho with rfl | ho
    · exact .of_none rfl
    · exact effectOk_recordTrace _ _ o ho
  · exact hsame

theorem sequentialStep_ok (h : ExecOk c e.now s) (answer : Answer) :
    ResultOk c e.now (sequentialStep c s e answer) := by
  obtain ⟨hr, hphase⟩ := h
  unfold sequentialStep
  split
  · exact exhausted_ok hr
  · exact startTarget_ok hr _ _
  · next hs =>
    rw [hs] at hphase
    exact selectAccount_ok hr hphase _
  · next hs =>
    rw [hs] at hphase
    exact leaseAccount_ok hr hphase _
  · next hs =>
    rw [hs] at hphase
    exact adapterAnswered_ok hr hphase _
  · next hs =>
    split
    · exact ⟨⟨hr, hphase⟩, effectOk_nil⟩
    · rw [hs] at hphase
      exact ⟨⟨hr, hphase⟩, dispatch_ok hr hphase.allows hphase.leaseOf⟩
  · next hs =>
    rw [hs] at hphase
    split
    · exact attemptFailed_ok hr hphase _
    · exact ⟨⟨hr, hphase⟩, effectOk_nil⟩
  · next hs =>
    rw [hs] at hphase
    exact attemptCollected_ok hr hphase _ _
  · next hs =>
    have ha := hphase
    rw [hs] at ha
    exact streamStep_ok hr ha hs _
  · exact ⟨⟨hr, hphase⟩, effectOk_nil⟩

end Sequential

/-- **One step** keeps the invariant, and its adapter calls are right. -/
theorem step_ok {c : Call} {t : ℕ} {s : ExecState} (e : Event) (ht : t ≤ e.now)
    (h : ExecOk c t s) : ResultOk c e.now (step c s e) := by
  have hr := h.resolver.mono ht
  unfold step
  split
  · exact ⟨⟨hr.apply _, h.phase⟩, effectOk_nil⟩
  · split
    · refine ⟨⟨hr, ?_⟩, effectOk_nil⟩
      unfold enter
      dsimp only
      split
      · next hhedges =>
        refine ⟨hhedges, fun racer hm => ?_⟩
        obtain ⟨target, htarget, rfl⟩ := List.mem_map.mp hm
        exact ⟨htarget, trivial⟩
      · trivial
    · next hs => exact raceStep_ok hr h.phase hs _ _
    · exact sequentialStep_ok ⟨hr, h.phase⟩ _

theorem start_ok (c : Call) : ExecOk c 0 (start c) := by
  refine ⟨⟨rfl, rfl, rfl, fun _ p u hu => ?_⟩, trivial⟩
  exact absurd hu (by simp [start, CredentialResolver.new, CircuitBreaker.new,
    CircuitBreaker.stateOf])

/-- **Every adapter call of every run.** -/
theorem dispatchOk_of_mem {c : Call} {events : List Event} (htime : Timely events) {d : Dispatch}
    (hd : d ∈ dispatches c events) : DispatchOk c d := by
  obtain ⟨o, ho, hod⟩ := List.mem_filterMap.mp hd
  have hrun : ∀ o ∈ (execute c events).2, EffectOk c o :=
    Machine.run_forall_timed (fun t s e ht h => step_ok e ht h) (start_ok c) htime
  exact hrun o ho d hod

end Switchback
