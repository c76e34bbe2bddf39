import Switchback.Credentials.Resolver
import Switchback.Ledger.Spend
import Switchback.Lib.Machine
import Switchback.Runtime.Access
import Switchback.Runtime.Collect

/-!
# Executing a planned request

The part of the execution core from the plan on: the hedged race of the first candidates, the loop
over targets and accounts with retries and fallback, and the stream that a client drains.  A run
is a list of events: a call of the resolver by another request, or an answer that the code was
waiting for.  Between two awaits the code runs as one step.
-/

namespace Switchback

open Lib

/-! ### What is pinned -/

structure HedgeConfig where
  enabled : Bool := false
  delayMs : ℕ := 150
  maxParallel : ℕ := 2

/-- What the loop asks of an adapter beside the execution itself. -/
structure Adapter where
  requestWarnings : AiRequest → ExecutionTarget → List String := fun _ _ => []

structure Snapshot where
  providers : OrdMap String ProviderAccounts
  adapter : String → Option Adapter
  tenants : List TenantConfig := []
  circuitBreaker : BreakerConfig := {}
  hedge : HedgeConfig := {}
  retry : RetryConfig := {}
  perProviderUsd : OrdMap String F64 := OrdMap.empty
  strictSchemaDownlevel : Bool := false
  maxResponseBytes : Option ℕ := none

/-- A request with its plan.  `fromStr` reads JSON. -/
structure Call where
  snap : Snapshot
  req : AiRequest
  clientProfile : Option ClientProfileConfig := none
  /-- The targets that a scoped execution may use. -/
  scope : Option (List String) := none
  storeRequired : Bool := false
  candidates : List ExecutionTarget
  rejected : List RejectedCandidate := []
  unknown : List String := []
  summary : String := ""
  fromStr : String → Except String Json

structure ExecError where
  status : ℕ
  errorType : String
  message : String
  summary : Option String := none
  retryAfter : Option ℕ := none

/-- An upstream failure after a routing decision. -/
def ExecError.upstream (error : AdapterError) (summary : String) : ExecError where
  status := error.errorClass.httpStatus
  errorType := "upstream_error"
  message := error.message
  summary := some summary

inductive ExecOutcome where
  | stream
  | collected (response : AiResponse)
  | error (error : ExecError)

namespace Call

/-- The combined allow-list of the tenant and the client profile for a provider. -/
def allowedAccounts (c : Call) (providerId : String) : Option (List String) :=
  let tenant := (c.req.tenant.bind fun id => c.snap.tenants.find? fun t => t.id = id).filter
    fun tenant => !tenant.allowedAccounts.isEmpty
  combineAllowedAccounts (tenant.map fun tenant => tenantAllowedAccounts tenant providerId)
    (clientProfileAllowedAccounts c.clientProfile providerId)

/-- Is the hedging fast path taken? -/
def hedges (c : Call) : Bool :=
  c.scope.isNone && c.snap.hedge.enabled && !c.req.stream && decide (2 ≤ c.candidates.length)

/-- The candidates that are raced. -/
def raced (c : Call) : List ExecutionTarget :=
  c.candidates.take (min (max c.snap.hedge.maxParallel 1) c.candidates.length)

end Call

/-! ### Where the code waits -/

/-- A racer: waiting for its turn, for a lease, for the adapter, for the stream, or lost. -/
inductive RacerPhase where
  | waiting
  | leasing (accountId : String) (lease : CredentialLease)
  | executing (accountId : String) (lease : CredentialLease)
  | collecting (accountId : String)
  | lost
  deriving DecidableEq

structure Racer where
  target : ExecutionTarget
  phase : RacerPhase := .waiting

/-- The variables of the account loop of a target. -/
structure Work where
  target : ExecutionTarget
  adapter : Adapter
  rest : List ExecutionTarget
  triedAccounts : List String := []
  allowedAccounts : Option (List String)

/-- A dispatched attempt. -/
structure Attempt where
  work : Work
  accountId : String
  lease : CredentialLease
  retryN : ℕ := 0

/-- What is known of a stream that the client drains: the peeked first event until it is
delivered, the last usage and the finish reason. -/
structure FinishGuard where
  first : Option AiStreamEvent
  usage : Usage := {}
  finishReason : Option FinishReason := none

inductive Phase where
  | planned
  | racing (startedAt : ℕ) (racers : List Racer)
  | targets (rest : List ExecutionTarget)
  | selecting (work : Work)
  | leasing (work : Work) (accountId : String) (lease : CredentialLease)
  | executing (attempt : Attempt)
  | backingOff (attempt : Attempt) (until_ : ℕ)
  | precommitting (attempt : Attempt)
  | collecting (attempt : Attempt)
  | streaming (attempt : Attempt) (guard : FinishGuard)
  | done (outcome : ExecOutcome)

structure ExecState where
  resolver : CredentialResolver
  phase : Phase := .planned
  lastErr : Option AdapterError := none
  unavailableRetryAfter : Option ℕ := none

abbrev StreamItem := Except AdapterError AiStreamEvent

/-- What the code was waiting for. -/
inductive Answer where
  /-- Nothing: the code runs on, or a timer fires. -/
  | advance
  | leased (mint : Mint)
  | executed (result : Except AdapterError Unit)
  | firstEvent (item : Option StreamItem)
  /-- The whole stream, and the answer to the usage write. -/
  | collected (items : List StreamItem) (usage : Except String Unit)
  /-- The client takes the next item of the stream. -/
  | delivered (item : Option StreamItem)
  /-- The client drops the stream. -/
  | dropped

inductive Input where
  | other (op : ResolverOp)
  /-- In the race, the racer with this number. -/
  | own (racer : ℕ) (answer : Answer)

structure Event where
  now : ℕ
  input : Input
  ledger : UsageLedger := .inMemory
  fault : Option StoreError := none

/-! ### What it does -/

/-- A call of an adapter, with the state that it is made in. -/
structure Dispatch where
  hedged : Bool
  target : ExecutionTarget
  accountId : String
  lease : CredentialLease
  breaker : CircuitBreaker
  now : ℕ
  ledger : UsageLedger
  fault : Option StoreError

inductive FinishOutcome where
  | ok (finishReason : FinishReason)
  | failed (errorClass : ErrorClass)
  | cancelled

inductive Effect where
  | dispatch (d : Dispatch)
  | finishAttempt (target : ExecutionTarget) (accountId : String) (outcome : FinishOutcome)
  | recordUsage (target : ExecutionTarget) (accountId : String) (usage : Usage)
  /-- To the trace log and the store. -/
  | recordTrace (status : ℕ) (streamed : Bool)
  /-- To the trace log only. -/
  | logTrace (status : ℕ) (streamed : Bool)

def Effect.dispatched : Effect → Option Dispatch
  | .dispatch d => some d
  | _ => none

/-- The adapter call of an attempt. -/
def dispatch (hedged : Bool) (target : ExecutionTarget) (accountId : String)
    (lease : CredentialLease) (r : CredentialResolver) (e : Event) : Effect :=
  .dispatch
    { hedged := hedged, target := target, accountId := accountId, lease := lease,
      breaker := r.breaker, now := e.now, ledger := e.ledger, fault := e.fault }

/-- What the breaker learns when an attempt is finalised. -/
def finishBreaker (r : CredentialResolver) (providerId : String) (now : ℕ) :
    FinishOutcome → CredentialResolver
  | .ok _ => r.circuitRecord providerId true now
  | .failed _ => r.circuitRecord providerId false now
  | .cancelled => r

/-- Lock the account and finalise the attempt as failed. -/
def failAttempt (r : CredentialResolver) (target : ExecutionTarget) (accountId : String)
    (errorClass : ErrorClass) (now : ℕ) : CredentialResolver × List Effect :=
  (finishBreaker (r.reportFailure target.providerId accountId target.model errorClass now)
      target.providerId now (.failed errorClass),
    [.finishAttempt target accountId (.failed errorClass)])

/-- Unlock the account and finalise the attempt as a success. -/
def succeedAttempt (r : CredentialResolver) (target : ExecutionTarget) (accountId : String)
    (finishReason : FinishReason) (now : ℕ) : CredentialResolver × List Effect :=
  (finishBreaker (r.reportSuccess target.providerId accountId) target.providerId now
      (.ok finishReason),
    [.finishAttempt target accountId (.ok finishReason)])

/-! ### The race -/

/-- Where a racer's step leads. -/
inductive Raced where
  | going (phase : RacerPhase)
  | won (accountId : String) (response : AiResponse)

/-- The delay before the racer with number `i` starts. -/
def hedgeDelay (hedge : HedgeConfig) (i : ℕ) : ℕ :=
  millis (min (hedge.delayMs * i) (2 ^ 64 - 1))

/-- One racer: resolve an account, refresh the lease, execute and collect. -/
def racerStep (c : Call) (r : CredentialResolver) (startedAt i : ℕ) (racer : Racer) (e : Event)
    (answer : Answer) : Raced × CredentialResolver × List Effect :=
  let target := racer.target
  match racer.phase, answer with
  | .waiting, .advance =>
      if e.now < startedAt + hedgeDelay c.snap.hedge i then (.going .waiting, r, [])
      else
        match c.snap.adapter target.providerId with
        | none => (.going .lost, r, [])
        | some _ =>
            match r.resolveWithSession target.providerId target.model []
                (sessionAffinityKey c.req) e.now with
            | (.selected accountId lease, r) => (.going (.leasing accountId lease), r, [])
            | (_, r) => (.going .lost, r, [])
  | .leasing accountId lease, .leased mint =>
      match freshLease accountId lease mint with
      | .error _ => (.going .lost, r, [])
      | .ok lease =>
          (.going (.executing accountId lease), r,
            [dispatch true target accountId lease r e])
  | .executing accountId _, .executed result =>
      match result with
      | .error error =>
          let (r, effects) := failAttempt r target accountId error.errorClass e.now
          (.going .lost, r, effects)
      | .ok () => (.going (.collecting accountId), r, [])
  | .collecting accountId, .collected items _ =>
      match collectResponse c.fromStr items c.req.id c.req.model c.snap.maxResponseBytes with
      | .error error =>
          let (r, effects) := failAttempt r target accountId error.errorClass e.now
          (.going .lost, r, effects)
      | .ok response =>
          let (r, effects) := succeedAttempt r target accountId response.finishReason e.now
          (.won accountId response, r, effects)
  | phase, _ => (.going phase, r, [])

/-- A racer that is dropped while its attempt is in flight finalises it as cancelled. -/
def cancelRacer (racer : Racer) : List Effect :=
  match racer.phase with
  | .executing accountId _ | .collecting accountId =>
      [.finishAttempt racer.target accountId .cancelled]
  | _ => []

/-- The answer to the usage write of a racer's stream. -/
def Answer.usage : Answer → Except String Unit
  | .collected _ usage => usage
  | _ => .ok ()

/-- The outcome of a winner. -/
def winOutcome (target : ExecutionTarget) (accountId : String) (response : AiResponse)
    (usage : Except String Unit) : ExecOutcome × List Effect :=
  match usage with
  | .error e =>
      (.error
        { status := 500, errorType := "usage_persistence_failed",
          message := "usage persistence failed: " ++ e },
        [.recordTrace 500 false])
  | .ok () => (.collected response,
      [.recordUsage target accountId response.usage, .logTrace 200 false])

/-- One step of the race: the first success wins and the others are dropped; when all have lost,
the targets are tried one after the other. -/
def raceStep (c : Call) (s : ExecState) (startedAt : ℕ) (racers : List Racer) (e : Event)
    (i : ℕ) (answer : Answer) : ExecState × List Effect :=
  match racers[i]? with
  | none => (s, [])
  | some racer =>
      match racerStep c s.resolver startedAt i racer e answer with
      | (.going phase, r, effects) =>
          let racers := racers.set i { racer with phase := phase }
          let phase :=
            if racers.all fun racer => racer.phase = .lost then Phase.targets c.candidates
            else .racing startedAt racers
          ({ s with resolver := r, phase := phase }, effects)
      | (.won accountId response, r, effects) =>
          let (outcome, finished) := winOutcome racer.target accountId response answer.usage
          ({ s with resolver := r, phase := .done outcome },
            effects ++ (racers.eraseIdx i).flatMap cancelRacer ++ finished)

/-! ### The targets one after the other -/

/-- The request ends with an error. -/
def failRequest (s : ExecState) (error : ExecError) : ExecState × List Effect :=
  ({ s with phase := .done (.error error) }, [.recordTrace error.status false])

/-- All targets have been tried. -/
def exhausted (c : Call) (s : ExecState) : ExecState × List Effect :=
  match s.lastErr with
  | some error => failRequest s (.upstream error c.summary)
  | none =>
      match s.unavailableRetryAfter with
      | some retryAfter =>
          failRequest s
            { status := 503, errorType := "provider_unavailable",
              message := "all accounts for eligible targets are temporarily unavailable; " ++
                s!"retry after {retryAfter / 10 ^ 6}ms",
              summary := some c.summary, retryAfter := some retryAfter }
      | none =>
          let rejected := Text.join "," (c.rejected.map fun r => r.targetId ++ ":" ++ r.reason)
          failRequest s
            { status := 400, errorType := "invalid_request_error",
              message := s!"no eligible target: rejected={rejected} unknown=[" ++
                Text.join "," c.unknown ++ "]",
              summary := some c.summary }

/-- Is the provider's spend at its cap?  The error is that of the store. -/
def overProviderCap (c : Call) (providerId : String) (ledger : UsageLedger)
    (fault : Option StoreError) : Except String Bool :=
  match c.snap.perProviderUsd.get providerId with
  | none => .ok false
  | some cap =>
      (Engine.providerSpendUsd ledger c.storeRequired fault providerId).map fun spent =>
        Fp.le cap spent

/-- The gates of a target: its adapter, its circuit and its cap. -/
def startTarget (c : Call) (s : ExecState) (target : ExecutionTarget)
    (rest : List ExecutionTarget) (e : Event) : ExecState × List Effect :=
  match c.snap.adapter target.providerId with
  | none => ({ s with phase := .targets rest }, [])
  | some adapter =>
      match s.resolver.circuitAllows target.providerId e.now with
      | (false, r) => ({ s with resolver := r, phase := .targets rest }, [])
      | (true, r) =>
          let s := { s with resolver := r }
          match overProviderCap c target.providerId e.ledger e.fault with
          | .error err =>
              let error : ExecError :=
                { status := 503, errorType := "usage_store_unavailable",
                  message := "usage store unavailable for budget check: " ++ err }
              ({ s with phase := .done (.error error) }, [.recordTrace 503 c.req.stream])
          | .ok true => ({ s with phase := .targets rest }, [])
          | .ok false =>
              let work : Work :=
                { target := target, adapter := adapter, rest := rest,
                  allowedAccounts := c.allowedAccounts target.providerId }
              ({ s with phase := .selecting work }, [])

/-- Pick an account that was not tried yet. -/
def selectAccount (c : Call) (s : ExecState) (work : Work) (now : ℕ) : ExecState × List Effect :=
  match s.resolver.resolveWithSessionAllowed work.target.providerId work.target.model
      work.triedAccounts (sessionAffinityKey c.req) work.allowedAccounts now with
  | (.selected accountId lease, r) =>
      ({ s with resolver := r, phase := .leasing work accountId lease }, [])
  | (.allUnavailable retryAfter, r) =>
      let unavailable := match retryAfter, s.unavailableRetryAfter with
        | some retryAfter, some current => some (min current retryAfter)
        | some retryAfter, none => some retryAfter
        | none, current => current
      ({ s with resolver := r, phase := .targets work.rest, unavailableRetryAfter := unavailable },
        [])
  | (.noAccounts, r) => ({ s with resolver := r, phase := .targets work.rest }, [])

/-- Fall over to the next account. -/
def fallOver (s : ExecState) (work : Work) (accountId : String) (error : AdapterError) :
    ExecState :=
  { s with
    phase := .selecting { work with triedAccounts := work.triedAccounts ++ [accountId] }
    lastErr := some error }

/-- The account is leased: strict mode may refuse the translation, else the adapter is called. -/
def leaseAccount (c : Call) (s : ExecState) (work : Work) (accountId : String)
    (lease : CredentialLease) (mint : Mint) (e : Event) : ExecState × List Effect :=
  match freshLease accountId lease mint with
  | .error err =>
      let error : AdapterError :=
        { errorClass := .authentication, message := "oauth refresh failed: " ++ err }
      let r := s.resolver.reportFailure work.target.providerId accountId work.target.model
        error.errorClass e.now
      (fallOver { s with resolver := r } work accountId error, [])
  | .ok lease =>
      let refused :=
        if c.snap.strictSchemaDownlevel then
          highLossinessSchemaWarning (work.adapter.requestWarnings c.req work.target)
        else none
      match refused with
      | some warning =>
          failRequest s
            { status := ErrorClass.httpStatus .unsupportedCapability,
              errorType := "schema_downlevel_rejected",
              message := "high-lossiness schema downlevel rejected for target `" ++
                work.target.id ++ "`: " ++ warning,
              summary := some c.summary }
      | none =>
          ({ s with
              phase := .executing { work := work, accountId := accountId, lease := lease } },
            [dispatch false work.target accountId lease s.resolver e])

/-- An attempt failed: fall over to the next account, or end the request. -/
def attemptFailed (c : Call) (s : ExecState) (a : Attempt) (error : AdapterError) (now : ℕ) :
    ExecState × List Effect :=
  let (r, effects) := failAttempt s.resolver a.work.target a.accountId error.errorClass now
  let s := { s with resolver := r }
  if error.shouldFallback then (fallOver s a.work a.accountId error, effects)
  else
    let (s, finished) := failRequest s (.upstream error c.summary)
    (s, effects ++ finished)

/-- The adapter answered: retry a transient failure, or go on. -/
def adapterAnswered (c : Call) (s : ExecState) (a : Attempt) (result : Except AdapterError Unit)
    (now : ℕ) : ExecState × List Effect :=
  match result with
  | .error error =>
      if c.snap.retry.maxRetries ≤ a.retryN ∨ !retryable error.errorClass then
        attemptFailed c s a error now
      else
        -- this dispatch is finalised before the next one; the account is not locked
        let r := finishBreaker s.resolver a.work.target.providerId now (.failed error.errorClass)
        let a' := { a with retryN := a.retryN + 1 }
        let until_ := now + millis (retryBackoff c.snap.retry a'.retryN)
        ({ s with resolver := r, phase := .backingOff a' until_ },
          [.finishAttempt a.work.target a.accountId (.failed error.errorClass)])
  | .ok () =>
      ({ s with phase := if c.req.stream then .precommitting a else .collecting a }, [])

/-- The first event decides whether the stream is committed to the client. -/
def precommitStream : Option StreamItem → Except AdapterError AiStreamEvent
  | some (.ok (.error message errorClass)) =>
      .error { errorClass := errorClass, message := message }
  | some (.ok first) => .ok first
  | some (.error error) => .error error
  | none =>
      .error { errorClass := .streamInterrupted,
               message := "upstream stream ended before first event" }

/-- A collected response is recorded and returned. -/
def attemptCollected (c : Call) (s : ExecState) (a : Attempt) (items : List StreamItem)
    (usage : Except String Unit) (now : ℕ) : ExecState × List Effect :=
  match collectResponse c.fromStr items c.req.id c.req.model c.snap.maxResponseBytes with
  | .error error => attemptFailed c s a error now
  | .ok response =>
      let (r, effects) :=
        succeedAttempt s.resolver a.work.target a.accountId response.finishReason now
      let s := { s with resolver := r }
      match usage with
      | .error e =>
          let (s, finished) := failRequest s
            { status := 500, errorType := "usage_persistence_failed",
              message := "usage persistence failed: " ++ e }
          (s, effects ++ finished)
      | .ok () =>
          ({ s with phase := .done (.collected response) },
            effects ++ [.recordUsage a.work.target a.accountId response.usage,
              .recordTrace 200 false])

/-- The stream failed while the client drained it. -/
def streamFailed (s : ExecState) (a : Attempt) (errorClass : ErrorClass) (now : ℕ) :
    ExecState × List Effect :=
  let (r, effects) := failAttempt s.resolver a.work.target a.accountId errorClass now
  ({ s with resolver := r, phase := .done .stream },
    effects ++ [.recordTrace errorClass.httpStatus true])

/-- An item goes to the client: an error or the end finalises the attempt. -/
def deliver (s : ExecState) (a : Attempt) (guard : FinishGuard) (now : ℕ) :
    Option StreamItem → ExecState × List Effect
  | some (.error error) => streamFailed s a error.errorClass now
  | some (.ok (.error _ errorClass)) => streamFailed s a errorClass now
  | some (.ok (.messageEnd reason)) =>
      ({ s with phase := .streaming a { guard with finishReason := some reason } }, [])
  | some (.ok (.usageDelta usage)) =>
      ({ s with phase := .streaming a { guard with usage := usage } }, [])
  | some (.ok _) => ({ s with phase := .streaming a guard }, [])
  | none =>
      let (r, effects) := succeedAttempt s.resolver a.work.target a.accountId
        (guard.finishReason.getD .stop) now
      ({ s with resolver := r, phase := .done .stream },
        effects ++ [.recordUsage a.work.target a.accountId guard.usage, .recordTrace 200 true])

/-- The client drains the stream, or hangs up. -/
def streamStep (s : ExecState) (a : Attempt) (guard : FinishGuard) (now : ℕ) :
    Answer → ExecState × List Effect
  | .delivered item =>
      match guard.first with
      | some event => deliver s a { guard with first := none } now (some (.ok event))
      | none => deliver s a guard now item
  | .dropped =>
      ({ s with phase := .done .stream },
        [.finishAttempt a.work.target a.accountId .cancelled, .recordTrace 499 true])
  | _ => (s, [])

/-- One step of the loop over targets and accounts. -/
def sequentialStep (c : Call) (s : ExecState) (e : Event) (answer : Answer) :
    ExecState × List Effect :=
  match s.phase, answer with
  | .targets [], .advance => exhausted c s
  | .targets (target :: rest), .advance => startTarget c s target rest e
  | .selecting work, .advance => selectAccount c s work e.now
  | .leasing work accountId lease, .leased mint => leaseAccount c s work accountId lease mint e
  | .executing a, .executed result => adapterAnswered c s a result e.now
  | .backingOff a until_, .advance =>
      if e.now < until_ then (s, [])
      else
        ({ s with phase := .executing a },
          [dispatch false a.work.target a.accountId a.lease s.resolver e])
  | .precommitting a, .firstEvent item =>
      match precommitStream item with
      | .error error => attemptFailed c s a error e.now
      | .ok first => ({ s with phase := .streaming a { first := some first } }, [])
  | .collecting a, .collected items usage => attemptCollected c s a items usage e.now
  | .streaming a guard, answer => streamStep s a guard e.now answer
  | _, _ => (s, [])

/-! ### The whole execution -/

/-- Take the hedging fast path, or start with the first target. -/
def enter (c : Call) (s : ExecState) (now : ℕ) : ExecState :=
  { s with
    phase :=
      if c.hedges then .racing now (c.raced.map fun target => { target := target })
      else .targets c.candidates }

def step (c : Call) (s : ExecState) (e : Event) : ExecState × List Effect :=
  match e.input with
  | .other op => ({ s with resolver := s.resolver.apply e.now op }, [])
  | .own i answer =>
      match s.phase with
      | .planned => (enter c s e.now, [])
      | .racing startedAt racers => raceStep c s startedAt racers e i answer
      | _ => sequentialStep c s e answer

/-- The state before the first step: nothing is locked and every circuit is closed. -/
def start (c : Call) : ExecState :=
  { resolver := .new c.snap.providers c.snap.circuitBreaker }

def execute (c : Call) (events : List Event) : ExecState × List Effect :=
  Machine.run (step c) (start c) events

/-- The adapter calls of a run. -/
def dispatches (c : Call) (events : List Event) : List Dispatch :=
  (execute c events).2.filterMap Effect.dispatched

/-- The events come in the order of their times. -/
def Timely (events : List Event) : Prop := Machine.Timely Event.now 0 events

end Switchback
