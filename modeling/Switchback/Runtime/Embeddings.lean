import Switchback.Lib.Lockstep
import Switchback.Runtime.Traces

/-!
# Embeddings requests

An embeddings request runs through its own copy of the front half and of the loop over targets and
accounts, without race, retry or stream.
-/

namespace Switchback

open Lib Router

/-! ### The front half -/

inductive EmbeddingsOutcome where
  | json (value : Json) (summary requestId : String)
  | error (requestId : String) (error : ExecError)

/-- An embeddings call has no output tokens. -/
def embeddingsUsage (value : Json) : Usage :=
  let prompt := (value.pointer ["usage", "prompt_tokens"]).bind Json.asU64
  let total := (value.pointer ["usage", "total_tokens"]).bind Json.asU64
  { inputTokens := (prompt.or total).getD 0 }

/-- The request that is routed in place of the body. -/
def embeddingsRequest (id model : String) (tenant project sessionId : Option String) :
    AiRequest where
  id := id
  model := model
  messages := []
  metadata :=
    match sessionId with
    | some sessionId => OrdMap.empty.insert "session_id" sessionId
    | none => OrdMap.empty
  tenant := tenant
  project := project

inductive EmbeddingsAdmitted where
  | denied (requestId : String) (error : ExecError)
  | planned (c : Call)

/-- Trace the refusal and end the request. -/
def denyEmbeddings (req : AiRequest) (error : ExecError) : EmbeddingsAdmitted × List TraceCall :=
  (.denied req.id error, [.recordTrace (req.traceRecord error.status false)])

/-- The call under a plan. -/
def Ingress.embeddingsCall (g : Ingress) (req : AiRequest) (plan : RoutePlan)
    (unknown : List String) : Call where
  snap := g.snap
  req := req
  storeRequired := g.storeRequired
  candidates := plan.candidates
  rejected := plan.decision.rejected
  unknown := unknown
  summary := plan.decision.summary ++ " embeddings"
  fromStr := g.fromStr

/-- The model of a body, which must not be empty. -/
def embeddingsModel (body : Json) : Option String :=
  (body.getStr "model").filter fun model => model ≠ ""

/-- The front half; `global` and `spent` are the states of the ledger at the two spend checks. -/
def planEmbeddings (g : Ingress) (id : String) (body : Json)
    (tenant project sessionId : Option String) (global spent : Reading) :
    EmbeddingsAdmitted × List TraceCall :=
  match embeddingsModel body with
  | none =>
      -- the refusal is traced before the request with its tenant and project is made
      (.denied id
        { status := 400, errorType := "invalid_request_error",
          message := "missing or invalid \"model\"" },
        [.recordTrace
          { requestId := id, tenant := none, project := none, inboundModel := "<missing>",
            finalStatus := 400, streamed := false }])
  | some model =>
  let req := embeddingsRequest id model tenant project sessionId
  match g.overGlobalBudget global with
  | some error => denyEmbeddings req error
  | none =>
  match g.overTenantBudget req.tenant spent with
  | some error => denyEmbeddings req error
  | none =>
  match g.preRoute req with
  | (.reject status message, req) =>
      denyEmbeddings req { status := status, errorType := "plugin_rejected", message := message }
  | (.proceed, req) =>
  -- no client profile is applied
  match g.resolveCandidates req.model with
  | .error error => denyEmbeddings req error
  | .ok resolved =>
  match g.planResolvedRoute req none resolved with
  | .error error => denyEmbeddings req error
  | .ok plan => (.planned (g.embeddingsCall req plan resolved.unknown), [])

/-! ### The loop -/

inductive EmbeddingsPhase where
  | targets (rest : List ExecutionTarget)
  | selecting (work : Work)
  | leasing (work : Work) (accountId : String) (lease : CredentialLease)
  | executing (work : Work) (accountId : String) (lease : CredentialLease)
  | done (outcome : EmbeddingsOutcome)

structure EmbeddingsState where
  resolver : CredentialResolver
  phase : EmbeddingsPhase
  lastErr : Option AdapterError := none
  unavailableRetryAfter : Option ℕ := none

inductive EmbeddingsInput where
  /-- A call of the resolver by another request. -/
  | other (op : ResolverOp)
  | advance
  | leased (mint : Mint)
  /-- The answer of the adapter, and the one to the usage write. -/
  | answered (result : Except AdapterError Json) (usage : Except String Unit)

structure EmbeddingsEvent where
  now : ℕ
  input : EmbeddingsInput
  ledger : UsageLedger := .inMemory
  fault : Option StoreError := none

section

variable (c : Call)

/-- The request ends with an error. -/
def failEmbeddings (s : EmbeddingsState) (error : ExecError) : EmbeddingsState × List Effect :=
  ({ s with phase := .done (.error c.req.id error) }, [.recordTrace error.status false])

/-- All targets have been tried; without an error of an attempt, the log alone is told. -/
def exhaustedEmbeddings (s : EmbeddingsState) : EmbeddingsState × List Effect :=
  match s.lastErr with
  | some error => failEmbeddings c s (.upstream error c.summary)
  | none =>
      match s.unavailableRetryAfter with
      | some retryAfter =>
          ({ s with
              phase := .done (.error c.req.id
                { status := 503, errorType := "provider_unavailable",
                  message := "all accounts for eligible targets are temporarily unavailable; " ++
                    s!"retry after {retryAfter / 10 ^ 6}ms",
                  summary := some c.summary, retryAfter := some retryAfter }) },
            [.logTrace 503 false])
      | none =>
          let rejected := Text.join "," (c.rejected.map fun r => r.targetId ++ ":" ++ r.reason)
          ({ s with
              phase := .done (.error c.req.id
                { status := 400, errorType := "invalid_request_error",
                  message := s!"no eligible target: rejected={rejected} unknown=[" ++
                    Text.join "," c.unknown ++ "]",
                  summary := some c.summary }) },
            [.logTrace 400 false])

/-- The gates of a target: its adapter, its circuit and its cap. -/
def startEmbeddingsTarget (s : EmbeddingsState) (target : ExecutionTarget)
    (rest : List ExecutionTarget) (e : EmbeddingsEvent) : EmbeddingsState × List Effect :=
  match c.snap.adapter target.providerId with
  | none => ({ s with phase := .targets rest }, [])
  | some adapter =>
      match s.resolver.circuitAllows target.providerId e.now with
      | (false, r) => ({ s with resolver := r, phase := .targets rest }, [])
      | (true, r) =>
          let s := { s with resolver := r }
          match overProviderCap c target.providerId e.ledger e.fault with
          | .error err =>
              failEmbeddings c s
                { status := 503, errorType := "usage_store_unavailable",
                  message := "usage store unavailable for budget check: " ++ err }
          | .ok true => ({ s with phase := .targets rest }, [])
          | .ok false =>
              let work : Work :=
                { target := target, adapter := adapter, rest := rest,
                  allowedAccounts := c.allowedAccounts target.providerId }
              ({ s with phase := .selecting work }, [])

/-- Pick an account that was not tried yet. -/
def selectEmbeddingsAccount (s : EmbeddingsState) (work : Work) (now : ℕ) :
    EmbeddingsState × List Effect :=
  match s.resolver.resolveWithSessionAllowed work.target.providerId work.target.model
      work.triedAccounts (sessionAffinityKey c.req) work.allowedAccounts now with
  | (.selected accountId lease, r) =>
      ({ s with resolver := r, phase := .leasing work accountId lease }, [])
  | (.allUnavailable retryAfter, r) =>
      let unavailable := match retryAfter, s.unavailableRetryAfter with
        | some retryAfter, some current => some (min current retryAfter)
        | some retryAfter, none => some retryAfter
        | none, current => current
      ({ s with resolver := r, phase := .targets work.rest, unavailableRetryAfter := unavailable },
        [])
  | (.noAccounts, r) => ({ s with resolver := r, phase := .targets work.rest }, [])

/-- Fall over to the next account. -/
def fallOverEmbeddings (s : EmbeddingsState) (work : Work) (accountId : String)
    (error : AdapterError) : EmbeddingsState :=
  { s with
    phase := .selecting { work with triedAccounts := work.triedAccounts ++ [accountId] }
    lastErr := some error }

/-- The account is leased: the adapter is called. -/
def leaseEmbeddingsAccount (s : EmbeddingsState) (work : Work) (accountId : String)
    (lease : CredentialLease) (mint : Mint) (e : EmbeddingsEvent) :
    EmbeddingsState × List Effect :=
  match freshLease accountId lease mint with
  | .error err =>
      let error : AdapterError :=
        { errorClass := .authentication, message := "oauth refresh failed: " ++ err }
      let r := s.resolver.reportFailure work.target.providerId accountId work.target.model
        error.errorClass e.now
      (fallOverEmbeddings { s with resolver := r } work accountId error, [])
  | .ok lease =>
      ({ s with phase := .executing work accountId lease },
        [.dispatch
          { hedged := false, target := work.target, accountId := accountId, lease := lease,
            breaker := s.resolver.breaker, now := e.now, ledger := e.ledger, fault := e.fault }])

/-- The adapter answered: the attempt is finalised before its usage is written. -/
def embeddingsAnswered (s : EmbeddingsState) (work : Work) (accountId : String)
    (result : Except AdapterError Json) (usage : Except String Unit) (now : ℕ) :
    EmbeddingsState × List Effect :=
  match result with
  | .ok value =>
      let (r, finished) := succeedAttempt s.resolver work.target accountId .stop now
      let s := { s with resolver := r }
      match usage with
      | .error e =>
          let (s, effects) := failEmbeddings c s
            { status := 500, errorType := "usage_persistence_failed",
              message := "usage persistence failed: " ++ e }
          (s, finished ++ effects)
      | .ok () =>
          ({ s with phase := .done (.json value c.summary c.req.id) },
            finished ++ [.recordUsage work.target accountId (embeddingsUsage value),
              .recordTrace 200 false])
  | .error error =>
      let (r, finished) := failAttempt s.resolver work.target accountId error.errorClass now
      let s := { s with resolver := r }
      if error.shouldFallback then (fallOverEmbeddings s work accountId error, finished)
      else
        let (s, effects) := failEmbeddings c s (.upstream error c.summary)
        (s, finished ++ effects)

def embeddingsStep (s : EmbeddingsState) (e : EmbeddingsEvent) : EmbeddingsState × List Effect :=
  match s.phase, e.input with
  | _, .other op => ({ s with resolver := s.resolver.apply e.now op }, [])
  | .targets [], .advance => exhaustedEmbeddings c s
  | .targets (target :: rest), .advance => startEmbeddingsTarget c s target rest e
  | .selecting work, .advance => selectEmbeddingsAccount c s work e.now
  | .leasing work accountId lease, .leased mint =>
      leaseEmbeddingsAccount s work accountId lease mint e
  | .executing work accountId _, .answered result usage =>
      embeddingsAnswered c s work accountId result usage e.now
  | _, _ => (s, [])

/-- The state before the first step. -/
def startEmbeddings : EmbeddingsState where
  resolver := .new c.snap.providers c.snap.circuitBreaker
  phase := .targets c.candidates

def executeEmbeddings (events : List EmbeddingsEvent) : EmbeddingsState × List Effect :=
  Machine.run (embeddingsStep c) (startEmbeddings c) events

end

/-! ### What a step can do -/

namespace EmbeddingsPhase

def isDone : EmbeddingsPhase → Bool
  | done _ => true
  | _ => false

/-- An account is selected and its attempt not ended. -/
def holds : EmbeddingsPhase → Bool
  | leasing .. | executing .. => true
  | _ => false

/-- The attempt that is started and not finalised. -/
def inFlight : EmbeddingsPhase → List AttemptKey
  | executing work accountId _ => [(work.target, accountId)]
  | _ => []

/-- All targets of the plan have been tried. -/
def atEnd : EmbeddingsPhase → EmbeddingsInput → Bool
  | targets [], .advance => true
  | _, _ => false

end EmbeddingsPhase

/-- The moves of the loop: where it waits, the last error, the input, and then where it waits, the
last error and what it did. -/
inductive EmbeddingsMove (c : Call) : EmbeddingsPhase → Option AdapterError → EmbeddingsInput →
    EmbeddingsPhase → Option AdapterError → List Effect → Prop where
  | stay {phase err input} (h : phase.atEnd input = false) :
      EmbeddingsMove c phase err input phase err []
  | exhaust (error : AdapterError) (outcome : EmbeddingsOutcome) (status : ℕ) :
      EmbeddingsMove c (.targets []) (some error) .advance (.done outcome) (some error)
        [.recordTrace status false]
  | empty (outcome : EmbeddingsOutcome) (status : ℕ) :
      EmbeddingsMove c (.targets []) none .advance (.done outcome) none [.logTrace status false]
  | skip (target : ExecutionTarget) (rest : List ExecutionTarget) (err : Option AdapterError) :
      EmbeddingsMove c (.targets (target :: rest)) err .advance (.targets rest) err []
  | capUnknown (target : ExecutionTarget) (rest : List ExecutionTarget)
      (err : Option AdapterError) (outcome : EmbeddingsOutcome) (status : ℕ) :
      EmbeddingsMove c (.targets (target :: rest)) err .advance (.done outcome) err
        [.recordTrace status false]
  | enter (target : ExecutionTarget) (rest : List ExecutionTarget) (err : Option AdapterError)
      (work : Work) :
      EmbeddingsMove c (.targets (target :: rest)) err .advance (.selecting work) err []
  | select (work : Work) (err : Option AdapterError) (accountId : String)
      (lease : CredentialLease) :
      EmbeddingsMove c (.selecting work) err .advance (.leasing work accountId lease) err []
  | unavailable (work : Work) (err : Option AdapterError) :
      EmbeddingsMove c (.selecting work) err .advance (.targets work.rest) err []
  | notLeased (work work' : Work) (err : Option AdapterError) (accountId : String)
      (lease : CredentialLease) (mint : Mint) (error : AdapterError) :
      EmbeddingsMove c (.leasing work accountId lease) err (.leased mint) (.selecting work')
        (some error) []
  | dispatch (work : Work) (err : Option AdapterError) (accountId : String)
      (lease lease' : CredentialLease) (mint : Mint) (d : Dispatch)
      (hkey : (d.target, d.accountId) = (work.target, accountId)) :
      EmbeddingsMove c (.leasing work accountId lease) err (.leased mint)
        (.executing work accountId lease') err [.dispatch d]
  | fallOver (work work' : Work) (err : Option AdapterError) (accountId : String)
      (lease : CredentialLease) (result : Except AdapterError Json) (usage : Except String Unit)
      (error : AdapterError) (outcome : FinishOutcome) :
      EmbeddingsMove c (.executing work accountId lease) err (.answered result usage)
        (.selecting work') (some error) [.finishAttempt work.target accountId outcome]
  | answer (work : Work) (err : Option AdapterError) (accountId : String)
      (lease : CredentialLease) (result : Except AdapterError Json) (usage : Except String Unit)
      (answered : EmbeddingsOutcome) (outcome : FinishOutcome) (used : List Usage) (status : ℕ) :
      EmbeddingsMove c (.executing work accountId lease) err (.answered result usage)
        (.done answered) err
        (.finishAttempt work.target accountId outcome ::
          used.map (Effect.recordUsage work.target accountId) ++ [.recordTrace status false])

section

variable (c : Call)

variable (s : EmbeddingsState)

theorem exhaustedEmbeddings_move :
    EmbeddingsMove c (.targets []) s.lastErr .advance (exhaustedEmbeddings c s).1.phase
      (exhaustedEmbeddings c s).1.lastErr (exhaustedEmbeddings c s).2 := by
  unfold exhaustedEmbeddings
  cases herr : s.lastErr with
  | some error =>
    show EmbeddingsMove c (.targets []) (some error) .advance _ s.lastErr _
    rw [herr]
    exact .exhaust error _ _
  | none =>
    cases s.unavailableRetryAfter with
    | some retryAfter => exact .empty _ _
    | none => exact .empty _ _

theorem startEmbeddingsTarget_move (target : ExecutionTarget)
    (rest : List ExecutionTarget) (e : EmbeddingsEvent) :
    EmbeddingsMove c (.targets (target :: rest)) s.lastErr .advance
      (startEmbeddingsTarget c s target rest e).1.phase
      (startEmbeddingsTarget c s target rest e).1.lastErr
      (startEmbeddingsTarget c s target rest e).2 := by
  unfold startEmbeddingsTarget
  cases c.snap.adapter target.providerId with
  | none => exact .skip target rest _
  | some adapter =>
    dsimp only
    cases s.resolver.circuitAllows target.providerId e.now with
    | mk ok r =>
      cases ok with
      | false => exact .skip target rest _
      | true =>
        dsimp only
        cases overProviderCap c target.providerId e.ledger e.fault with
        | error err => exact .capUnknown target rest _ _ _
        | ok spent =>
          cases spent with
          | true => exact .skip target rest _
          | false => exact .enter target rest _ _

theorem selectEmbeddingsAccount_move (work : Work) (now : ℕ) :
    EmbeddingsMove c (.selecting work) s.lastErr .advance
      (selectEmbeddingsAccount c s work now).1.phase
      (selectEmbeddingsAccount c s work now).1.lastErr
      (selectEmbeddingsAccount c s work now).2 := by
  unfold selectEmbeddingsAccount
  cases s.resolver.resolveWithSessionAllowed work.target.providerId work.target.model
    work.triedAccounts (sessionAffinityKey c.req) work.allowedAccounts now with
  | mk outcome r =>
    cases outcome with
    | selected accountId lease => exact .select work _ accountId lease
    | allUnavailable retryAfter => exact .unavailable work _
    | noAccounts => exact .unavailable work _

theorem leaseEmbeddingsAccount_move (work : Work) (accountId : String)
    (lease : CredentialLease) (mint : Mint) (e : EmbeddingsEvent) :
    EmbeddingsMove c (.leasing work accountId lease) s.lastErr (.leased mint)
      (leaseEmbeddingsAccount s work accountId lease mint e).1.phase
      (leaseEmbeddingsAccount s work accountId lease mint e).1.lastErr
      (leaseEmbeddingsAccount s work accountId lease mint e).2 := by
  unfold leaseEmbeddingsAccount
  cases freshLease accountId lease mint with
  | error err => exact .notLeased work _ _ accountId lease mint _
  | ok lease' => exact .dispatch work _ accountId lease lease' mint _ rfl

theorem embeddingsAnswered_move (work : Work) (accountId : String)
    (lease : CredentialLease) (result : Except AdapterError Json) (usage : Except String Unit)
    (now : ℕ) :
    EmbeddingsMove c (.executing work accountId lease) s.lastErr (.answered result usage)
      (embeddingsAnswered c s work accountId result usage now).1.phase
      (embeddingsAnswered c s work accountId result usage now).1.lastErr
      (embeddingsAnswered c s work accountId result usage now).2 := by
  unfold embeddingsAnswered
  cases result with
  | ok value =>
    cases usage with
    | error e => exact .answer work _ accountId lease _ _ _ _ [] _
    | ok u => exact .answer work _ accountId lease _ _ _ _ [embeddingsUsage value] _
  | error error =>
    dsimp only
    split
    · exact .fallOver work _ _ accountId lease _ _ _ _
    · exact .answer work _ accountId lease _ _ _ _ [] _

/-- **What a step can do.** -/
theorem embeddingsStep_move (e : EmbeddingsEvent) :
    EmbeddingsMove c s.phase s.lastErr e.input (embeddingsStep c s e).1.phase
      (embeddingsStep c s e).1.lastErr (embeddingsStep c s e).2 := by
  unfold embeddingsStep
  split
  · rename_i op hphase hinput
    refine .stay ?_
    rw [hinput]
    cases s.phase with
    | targets rest => cases rest <;> rfl
    | _ => rfl
  · rename_i hphase hinput
    rw [hphase, hinput]
    exact exhaustedEmbeddings_move c s
  · rename_i target rest hphase hinput
    rw [hphase, hinput]
    exact startEmbeddingsTarget_move c s target rest e
  · rename_i work hphase hinput
    rw [hphase, hinput]
    exact selectEmbeddingsAccount_move c s work e.now
  · rename_i work accountId lease mint hphase hinput
    rw [hphase, hinput]
    exact leaseEmbeddingsAccount_move c s work accountId lease mint e
  · rename_i work accountId lease result usage hphase hinput
    rw [hphase, hinput]
    exact embeddingsAnswered_move c s work accountId lease result usage e.now
  · rename_i _ hend _ _ _ _
    refine .stay ?_
    unfold EmbeddingsPhase.atEnd
    split
    · rename_i hphase hinput
      exact absurd hinput (hend hphase)
    · rfl

end

theorem EmbeddingsMove.settles {c : Call} {phase phase' : EmbeddingsPhase}
    {err err' : Option AdapterError} {input : EmbeddingsInput} {effects : List Effect}
    (h : EmbeddingsMove c phase err input phase' err' effects) :
    phase.inFlight ++ effects.filterMap Effect.started =
      effects.filterMap Effect.finished ++ phase'.inFlight := by
  cases h with
  | stay h => simp
  | dispatch work err accountId lease lease' mint d hkey =>
    show [(d.target, d.accountId)] = [(work.target, accountId)]
    rw [hkey]
  | answer work err accountId lease result usage answered outcome used status =>
    have hstarted : (used.map (Effect.recordUsage work.target accountId)).filterMap
        Effect.started = [] := by
      rw [List.filterMap_map]
      exact List.filterMap_eq_nil_iff.mpr fun u _ => rfl
    have hfinished : (used.map (Effect.recordUsage work.target accountId)).filterMap
        Effect.finished = [] := by
      rw [List.filterMap_map]
      exact List.filterMap_eq_nil_iff.mpr fun u _ => rfl
    rw [List.cons_append, List.filterMap_cons, List.filterMap_cons, List.filterMap_append,
      List.filterMap_append, hstarted, hfinished]
    rfl
  | _ => rfl

/-- **The attempts of a run** are finalised in the order in which they are started. -/
theorem executeEmbeddings_settles (c : Call) (s : EmbeddingsState)
    (events : List EmbeddingsEvent) :
    s.phase.inFlight ++ (Machine.run (embeddingsStep c) s events).2.filterMap Effect.started =
      (Machine.run (embeddingsStep c) s events).2.filterMap Effect.finished ++
        (Machine.run (embeddingsStep c) s events).1.phase.inFlight := by
  induction events generalizing s with
  | nil => exact List.append_nil _
  | cons e events ih =>
    rw [Machine.run, List.filterMap_append, List.filterMap_append, ← List.append_assoc,
      (embeddingsStep_move c s e).settles, List.append_assoc, ih, List.append_assoc]

theorem executeEmbeddings_finished (c : Call) (events : List EmbeddingsEvent)
    (hdone : (executeEmbeddings c events).1.phase.isDone = true) :
    (executeEmbeddings c events).2.filterMap Effect.finished =
      (executeEmbeddings c events).2.filterMap Effect.started := by
  have hrun := executeEmbeddings_settles c (startEmbeddings c) events
  have hnone : (executeEmbeddings c events).1.phase.inFlight = [] := by
    revert hdone
    cases (executeEmbeddings c events).1.phase with
    | done outcome => exact fun _ => rfl
    | _ => nofun
  unfold executeEmbeddings at hnone ⊢
  rw [hnone, List.append_nil] at hrun
  exact hrun.symm

/-! ### The run is traced once -/

section Traces

variable (c : Call)

/-- The step selects an account. -/
def selectsAccount (s : EmbeddingsState) (e : EmbeddingsEvent) : Bool :=
  !s.phase.holds && (embeddingsStep c s e).1.phase.holds

/-- An account was selected. -/
def EmbeddingsState.tried (s : EmbeddingsState) : Bool := s.lastErr.isSome || s.phase.holds

/-- The steps of a run. -/
def embeddingsTrail (s : EmbeddingsState) (events : List EmbeddingsEvent) :
    List (EmbeddingsState × EmbeddingsEvent) :=
  Machine.visited (fun s e => (embeddingsStep c s e).1) s events

/-- The plan comes to its end and no account was ever selected. -/
def fruitless (events : List EmbeddingsEvent) : Bool :=
  (embeddingsTrail c (startEmbeddings c) events).any (fun v => v.1.phase.atEnd v.2.input) &&
    !(embeddingsTrail c (startEmbeddings c) events).any fun v => selectsAccount c v.1 v.2

variable {s : EmbeddingsState}

theorem embeddingsStep_lastErr {e : EmbeddingsEvent} (hs : s.phase.isDone = false) :
    ((embeddingsStep c s e).1.phase.isDone = false ∧
        (embeddingsStep c s e).2.filterMap (Effect.traceCall c) = [] ∧
        s.phase.atEnd e.input = false ∧
        (embeddingsStep c s e).1.tried = (s.tried || selectsAccount c s e)) ∨
      ((embeddingsStep c s e).1.phase.isDone = true ∧ selectsAccount c s e = false ∧
        ∃ status, (embeddingsStep c s e).2.filterMap (Effect.traceCall c) =
          [if s.phase.atEnd e.input && !s.tried then .logTrace (c.req.traceRecord status false)
            else .recordTrace (c.req.traceRecord status false)]) := by
  have hmove := embeddingsStep_move c s e
  unfold EmbeddingsState.tried selectsAccount
  generalize (embeddingsStep c s e).1.phase = phase', (embeddingsStep c s e).1.lastErr = err',
    (embeddingsStep c s e).2 = effects at hmove ⊢
  generalize s.phase = phase, s.lastErr = err, e.input = input at hmove hs ⊢
  cases hmove with
  | stay h =>
    refine Or.inl ⟨hs, rfl, h, ?_⟩
    rw [Bool.not_and_self, Bool.or_false]
  | exhaust error outcome status => exact Or.inr ⟨rfl, rfl, status, rfl⟩
  | empty outcome status => exact Or.inr ⟨rfl, rfl, status, rfl⟩
  | capUnknown target rest err outcome status => exact Or.inr ⟨rfl, rfl, status, rfl⟩
  | answer work err accountId lease result usage answered outcome used status =>
    refine Or.inr ⟨rfl, rfl, status, ?_⟩
    have hused : (used.map (Effect.recordUsage work.target accountId)).filterMap
        (Effect.traceCall c) = [] := by
      rw [List.filterMap_map]
      exact List.filterMap_eq_nil_iff.mpr fun u _ => rfl
    rw [List.cons_append, List.filterMap_cons, List.filterMap_append, hused]
    rfl
  | _ => exact Or.inl ⟨rfl, rfl, rfl, by simp [EmbeddingsPhase.holds]⟩

theorem embeddingsStep_done {e : EmbeddingsEvent} (hs : s.phase.isDone = true) :
    (embeddingsStep c s e).1.phase.isDone = true ∧ (embeddingsStep c s e).2 = [] ∧
      s.phase.atEnd e.input = false ∧ selectsAccount c s e = false := by
  have hmove := embeddingsStep_move c s e
  unfold selectsAccount
  generalize (embeddingsStep c s e).1.phase = phase', (embeddingsStep c s e).1.lastErr = err',
    (embeddingsStep c s e).2 = effects at hmove ⊢
  generalize s.phase = phase, s.lastErr = err, e.input = input at hmove hs ⊢
  cases hmove with
  | stay h => exact ⟨hs, rfl, h, Bool.not_and_self _⟩
  | _ => cases hs

theorem embeddingsRun_done (hs : s.phase.isDone = true) (events : List EmbeddingsEvent) :
    (Machine.run (embeddingsStep c) s events).1.phase.isDone = true ∧
      (Machine.run (embeddingsStep c) s events).2 = [] ∧
      (embeddingsTrail c s events).any (fun v => v.1.phase.atEnd v.2.input) = false ∧
      ((embeddingsTrail c s events).any fun v => selectsAccount c v.1 v.2) = false := by
  induction events generalizing s with
  | nil => exact ⟨hs, rfl, rfl, rfl⟩
  | cons e events ih =>
    obtain ⟨hdone, hnone, hend, hselects⟩ := embeddingsStep_done c (e := e) hs
    obtain ⟨hrun, heffects, hends, hselect⟩ := ih hdone
    unfold embeddingsTrail at hends hselect ⊢
    refine ⟨hrun, ?_, ?_, ?_⟩
    · rw [Machine.run, hnone, heffects]
      rfl
    · rw [Machine.visited, List.any_cons, hend, hends]
      rfl
    · rw [Machine.visited, List.any_cons, hselects, hselect]
      rfl

/-- **Every run** that ends is traced once, in the log only when nothing was tried. -/
theorem embeddingsRun_records (hs : s.phase.isDone = false) (events : List EmbeddingsEvent)
    (hdone : (Machine.run (embeddingsStep c) s events).1.phase.isDone = true) :
    ∃ status, (Machine.run (embeddingsStep c) s events).2.filterMap (Effect.traceCall c) =
      [if (embeddingsTrail c s events).any (fun v => v.1.phase.atEnd v.2.input) &&
          !(s.tried || (embeddingsTrail c s events).any fun v => selectsAccount c v.1 v.2)
        then .logTrace (c.req.traceRecord status false)
        else .recordTrace (c.req.traceRecord status false)] := by
  induction events generalizing s with
  | nil =>
    rw [Machine.run, hs] at hdone
    cases hdone
  | cons e events ih =>
    unfold embeddingsTrail
    rw [Machine.visited, List.any_cons, List.any_cons]
    rw [Machine.run] at hdone ⊢
    dsimp only at hdone ⊢
    rw [List.filterMap_append]
    -- the step goes on, or it ends the run
    rcases embeddingsStep_lastErr c (e := e) hs with ⟨hgoing, hnone, hend, htried⟩ |
      ⟨hended, hselects, status, hcall⟩
    · obtain ⟨status, hcall⟩ := ih hgoing hdone
      refine ⟨status, ?_⟩
      unfold embeddingsTrail at hcall
      rw [hnone, List.nil_append, hcall, hend, Bool.false_or, htried, Bool.or_assoc]
    · obtain ⟨-, heffects, hends, hselect⟩ := embeddingsRun_done c hended events
      unfold embeddingsTrail at hends hselect
      refine ⟨status, ?_⟩
      rw [heffects, List.filterMap_nil, List.append_nil, hcall, hends, hselect, hselects,
        Bool.or_false, Bool.or_false, Bool.or_false]

theorem executeEmbeddings_traceCalls (events : List EmbeddingsEvent)
    (hdone : (executeEmbeddings c events).1.phase.isDone = true) :
    ∃ status, (executeEmbeddings c events).2.filterMap (Effect.traceCall c) =
      [if fruitless c events then .logTrace (c.req.traceRecord status false)
        else .recordTrace (c.req.traceRecord status false)] :=
  embeddingsRun_records c (s := startEmbeddings c) rfl events hdone

end Traces

end Switchback
