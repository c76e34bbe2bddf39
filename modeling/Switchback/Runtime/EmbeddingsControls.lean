import Switchback.Runtime.Embeddings
import Switchback.Runtime.Gates

/-!
# The controls of an embeddings request

An embeddings request beside the chat request of the same caller: what each may dispatch, spend and
trace.
-/

namespace Switchback

open Lib Router

namespace EmbeddingsControls

/-! ### The loop of another request -/

/-- What the loop of another request learns from an input. -/
def inputOf : EmbeddingsInput → Input
  | .other op => .other op
  | .advance => .own 0 .advance
  | .leased mint => .own 0 (.leased mint)
  | .answered result _ => .own 0 (.executed (result.map fun _ => ()))

def eventOf (e : EmbeddingsEvent) : Event where
  now := e.now
  input := inputOf e.input
  ledger := e.ledger
  fault := e.fault

variable (e : EmbeddingsEvent)

@[simp] theorem eventOf_now : (eventOf e).now = e.now := rfl

@[simp] theorem eventOf_input : (eventOf e).input = inputOf e.input := rfl

@[simp] theorem eventOf_ledger : (eventOf e).ledger = e.ledger := rfl

@[simp] theorem eventOf_fault : (eventOf e).fault = e.fault := rfl

/-- The loop alone, without race and retries. -/
def sequential (c : Call) : Call :=
  { c with
    snap :=
      { c.snap with
        hedge := { c.snap.hedge with enabled := false }
        retry := { c.snap.retry with maxRetries := 0 } } }

/-- The adapter calls of the loop alone on the same events. -/
def loopDispatches (c : Call) (events : List EmbeddingsEvent) : List Dispatch :=
  dispatches (sequential c) (⟨0, .own 0 .advance, .inMemory, none⟩ :: events.map eventOf)

/-- Another request under the same plan, with the same accounts and no translation refused. -/
structure Counterpart (c chat : Call) : Prop where
  providers : chat.snap.providers = c.snap.providers
  breaker : chat.snap.circuitBreaker = c.snap.circuitBreaker
  adapter : chat.snap.adapter = c.snap.adapter
  candidates : chat.candidates = c.candidates
  cap : overProviderCap chat = overProviderCap c
  accounts : chat.allowedAccounts = c.allowedAccounts
  session : sessionAffinityKey chat.req = sessionAffinityKey c.req
  translated : ∀ target ∈ c.candidates, ¬ SchemaRefused chat target

section

variable {c chat : Call} {s : EmbeddingsState} {x : ExecState}

theorem Counterpart.sequential (h : Counterpart c chat) : Counterpart c (sequential chat) :=
  ⟨h.providers, h.breaker, h.adapter, h.candidates, h.cap, h.accounts, h.session, h.translated⟩

/-- Nothing is called any more without an answer that an embeddings request does not get. -/
def Rests : Phase → Prop
  | .done _ | .collecting _ | .precommitting _ => True
  | _ => False

/-- A target of the plan with its adapter. -/
structure WorkOf (c : Call) (work : Work) : Prop where
  target : work.target ∈ c.candidates
  adapter : c.snap.adapter work.target.providerId = some work.adapter
  rest : ∀ target ∈ work.rest, target ∈ c.candidates

/-- Where the two loops wait. -/
inductive PhaseBeside (c : Call) : EmbeddingsPhase → Phase → Prop where
  | targets {rest : List ExecutionTarget} (h : ∀ target ∈ rest, target ∈ c.candidates) :
      PhaseBeside c (.targets rest) (.targets rest)
  | selecting {work : Work} (h : WorkOf c work) : PhaseBeside c (.selecting work) (.selecting work)
  | leasing {work : Work} (h : WorkOf c work) (accountId : String) (lease : CredentialLease) :
      PhaseBeside c (.leasing work accountId lease) (.leasing work accountId lease)
  | executing {work : Work} (h : WorkOf c work) (accountId : String) (lease : CredentialLease) :
      PhaseBeside c (.executing work accountId lease)
        (.executing { work := work, accountId := accountId, lease := lease })

/-- The loops wait at the same place with the same resolver, or call nothing any more. -/
inductive Beside (c : Call) (s : EmbeddingsState) (x : ExecState) : Prop where
  | going (resolver : x.resolver = s.resolver) (phase : PhaseBeside c s.phase x.phase)
  | ended (done : s.phase.isDone = true) (rests : Rests x.phase)

/-- Both steps lead beside each other and call the same. -/
def StepsBeside (c : Call) (a : EmbeddingsState × List Effect) (b : ExecState × List Effect) :
    Prop :=
  Beside c a.1 b.1 ∧ a.2.filterMap Effect.dispatched = b.2.filterMap Effect.dispatched

theorem exhaustedEmbeddings_ends (c : Call) (s : EmbeddingsState) :
    (exhaustedEmbeddings c s).1.phase.isDone = true ∧
      (exhaustedEmbeddings c s).2.filterMap Effect.dispatched = [] := by
  unfold exhaustedEmbeddings
  cases s.lastErr with
  | some error => exact ⟨rfl, rfl⟩
  | none =>
    cases s.unavailableRetryAfter with
    | some retryAfter => exact ⟨rfl, rfl⟩
    | none => exact ⟨rfl, rfl⟩

theorem exhausted_ends (c : Call) (x : ExecState) :
    Rests (exhausted c x).1.phase ∧ (exhausted c x).2.filterMap Effect.dispatched = [] := by
  unfold exhausted
  cases x.lastErr with
  | some error => exact ⟨trivial, rfl⟩
  | none =>
    cases x.unavailableRetryAfter with
    | some retryAfter => exact ⟨trivial, rfl⟩
    | none => exact ⟨trivial, rfl⟩

theorem exhausted_beside : StepsBeside c (exhaustedEmbeddings c s) (exhausted chat x) := by
  obtain ⟨hdone, hnone⟩ := exhaustedEmbeddings_ends c s
  obtain ⟨hrests, hnone'⟩ := exhausted_ends chat x
  exact ⟨.ended hdone hrests, hnone.trans hnone'.symm⟩

theorem startTarget_beside (hc : Counterpart c chat) (h : x.resolver = s.resolver)
    {target : ExecutionTarget} {rest : List ExecutionTarget}
    (hplan : ∀ t ∈ target :: rest, t ∈ c.candidates) (e : EmbeddingsEvent) :
    StepsBeside c (startEmbeddingsTarget c s target rest e)
      (startTarget chat x target rest (eventOf e)) := by
  obtain ⟨htarget, hrest⟩ := List.forall_mem_cons.mp hplan
  unfold startEmbeddingsTarget startTarget
  rw [hc.adapter, h, hc.cap, hc.accounts, eventOf_now, eventOf_ledger, eventOf_fault]
  cases hadapter : c.snap.adapter target.providerId with
  | none => exact ⟨.going rfl (.targets hrest), rfl⟩
  | some adapter =>
    dsimp only
    cases s.resolver.circuitAllows target.providerId e.now with
    | mk ok r =>
      cases ok with
      | false => exact ⟨.going rfl (.targets hrest), rfl⟩
      | true =>
        dsimp only
        cases overProviderCap c target.providerId e.ledger e.fault with
        | error err => exact ⟨.ended rfl trivial, rfl⟩
        | ok spent =>
          cases spent with
          | true => exact ⟨.going rfl (.targets hrest), rfl⟩
          | false => exact ⟨.going rfl (.selecting ⟨htarget, hadapter, hrest⟩), rfl⟩

variable {work : Work}

theorem selectAccount_beside (hc : Counterpart c chat) (h : x.resolver = s.resolver)
    (hwork : WorkOf c work) (now : ℕ) :
    StepsBeside c (selectEmbeddingsAccount c s work now) (selectAccount chat x work now) := by
  unfold selectEmbeddingsAccount selectAccount
  rw [hc.session, h]
  cases s.resolver.resolveWithSessionAllowed work.target.providerId work.target.model
    work.triedAccounts (sessionAffinityKey c.req) work.allowedAccounts now with
  | mk outcome r =>
    cases outcome with
    | selected accountId lease => exact ⟨.going rfl (.leasing hwork accountId lease), rfl⟩
    | allUnavailable retryAfter => exact ⟨.going rfl (.targets hwork.rest), rfl⟩
    | noAccounts => exact ⟨.going rfl (.targets hwork.rest), rfl⟩

theorem WorkOf.fallOver (h : WorkOf c work) (accountId : String) :
    WorkOf c { work with triedAccounts := work.triedAccounts ++ [accountId] } :=
  ⟨h.target, h.adapter, h.rest⟩

theorem leaseAccount_beside (hc : Counterpart c chat) (h : x.resolver = s.resolver)
    (hwork : WorkOf c work) (accountId : String) (lease : CredentialLease) (mint : Mint)
    (e : EmbeddingsEvent) :
    StepsBeside c (leaseEmbeddingsAccount s work accountId lease mint e)
      (leaseAccount chat x work accountId lease mint (eventOf e)) := by
  have htranslated : (if chat.snap.strictSchemaDownlevel then
      highLossinessSchemaWarning (work.adapter.requestWarnings chat.req work.target)
        else none) = none := by
    by_contra hwarn
    refine hc.translated work.target hwork.target ?_
    split at hwarn
    · rename_i hstrict
      refine ⟨hstrict, work.adapter, ?_, Option.isSome_iff_ne_none.mpr hwarn⟩
      rw [hc.adapter]
      exact hwork.adapter
    · exact absurd rfl hwarn
  unfold leaseEmbeddingsAccount leaseAccount
  dsimp only
  rw [h, htranslated]
  cases freshLease accountId lease mint with
  | error err => exact ⟨.going rfl (.selecting (hwork.fallOver accountId)), rfl⟩
  | ok lease' => exact ⟨.going rfl (.executing hwork accountId lease'), rfl⟩

theorem answered_beside (hretry : chat.snap.retry.maxRetries = 0) (h : x.resolver = s.resolver)
    (hwork : WorkOf c work) (accountId : String) (lease : CredentialLease)
    (result : Except AdapterError Json) (usage : Except String Unit) (now : ℕ) :
    StepsBeside c (embeddingsAnswered c s work accountId result usage now)
      (adapterAnswered chat x { work := work, accountId := accountId, lease := lease }
        (result.map fun _ => ()) now) := by
  unfold embeddingsAnswered adapterAnswered
  cases result with
  | ok value =>
    have hrests : Rests (if chat.req.stream = true then
        Phase.precommitting { work := work, accountId := accountId, lease := lease }
        else Phase.collecting { work := work, accountId := accountId, lease := lease }) := by
      split <;> trivial
    cases usage with
    | error e => exact ⟨.ended rfl hrests, rfl⟩
    | ok u => exact ⟨.ended rfl hrests, rfl⟩
  | error error =>
    have hlast : chat.snap.retry.maxRetries ≤ 0 := hretry.le
    show StepsBeside c _ (if chat.snap.retry.maxRetries ≤ 0 ∨ (!retryable error.errorClass) = true
      then _ else _)
    rw [if_pos (Or.inl hlast)]
    unfold attemptFailed
    dsimp only
    rw [h]
    split
    · exact ⟨.going rfl (.selecting (hwork.fallOver accountId)), rfl⟩
    · exact ⟨.ended rfl trivial, rfl⟩

theorem step_rests (e : EmbeddingsEvent) (h : Rests x.phase) :
    Rests (step chat x (eventOf e)).1.phase ∧
      (step chat x (eventOf e)).2.filterMap Effect.dispatched = [] := by
  unfold step
  rw [eventOf_input]
  cases hphase : x.phase with
  | done outcome =>
    cases e.input with
    | other op => exact ⟨trivial, rfl⟩
    | _ =>
      unfold sequentialStep
      rw [hphase]
      exact ⟨h, rfl⟩
  | collecting a =>
    cases e.input with
    | other op => exact ⟨trivial, rfl⟩
    | _ =>
      unfold sequentialStep
      rw [hphase]
      exact ⟨h, rfl⟩
  | precommitting a =>
    cases e.input with
    | other op => exact ⟨trivial, rfl⟩
    | _ =>
      unfold sequentialStep
      rw [hphase]
      exact ⟨h, rfl⟩
  | _ =>
    rw [hphase] at h
    cases h

theorem stay_beside (hresolver : x.resolver = s.resolver) (hphase : PhaseBeside c s.phase x.phase) :
    StepsBeside c (s, []) (x, []) :=
  ⟨.going hresolver hphase, rfl⟩

/-- **One step.** -/
theorem step_beside (hc : Counterpart c chat) (hretry : chat.snap.retry.maxRetries = 0)
    (h : Beside c s x) (e : EmbeddingsEvent) :
    StepsBeside c (embeddingsStep c s e) (step chat x (eventOf e)) := by
  cases h with
  | ended hdone hrests =>
    obtain ⟨hdone', hnone, -, -⟩ := embeddingsStep_done c (e := e) hdone
    obtain ⟨hrests', hnone'⟩ : Rests (step chat x (eventOf e)).1.phase ∧
        (step chat x (eventOf e)).2.filterMap Effect.dispatched = [] := step_rests e hrests
    refine ⟨.ended hdone' hrests', ?_⟩
    rw [hnone, hnone']
    rfl
  | going hresolver hphase =>
    have hstay := stay_beside hresolver hphase
    unfold embeddingsStep step
    rw [eventOf_input]
    generalize hs : s.phase = phase at hphase
    generalize hx : x.phase = phase' at hphase
    cases e.input with
    | other op =>
      exact ⟨.going (congrArg (CredentialResolver.apply · e.now op) hresolver) hphase, rfl⟩
    | advance =>
      unfold inputOf
      dsimp only
      unfold sequentialStep
      rw [hx]
      cases hphase with
      | @targets rest hplan =>
        cases rest with
        | nil => exact exhausted_beside
        | cons target rest => exact startTarget_beside hc hresolver hplan e
      | selecting hwork => exact selectAccount_beside hc hresolver hwork e.now
      | leasing hwork accountId lease => exact hstay
      | executing hwork accountId lease => exact hstay
    | leased mint =>
      unfold inputOf
      dsimp only
      unfold sequentialStep
      rw [hx]
      cases hphase with
      | @targets rest hplan => cases rest <;> exact hstay
      | selecting hwork => exact hstay
      | leasing hwork accountId lease =>
        exact leaseAccount_beside hc hresolver hwork accountId lease mint e
      | executing hwork accountId lease => exact hstay
    | answered result usage =>
      unfold inputOf
      dsimp only
      unfold sequentialStep
      rw [hx]
      cases hphase with
      | @targets rest hplan => cases rest <;> exact hstay
      | selecting hwork => exact hstay
      | leasing hwork accountId lease => exact hstay
      | executing hwork accountId lease =>
        exact answered_beside hretry hresolver hwork accountId lease result usage e.now

/-- **The loop of an embeddings request calls what the loop of its counterpart calls.** -/
theorem embeddings_lockstep (hc : Counterpart c chat) (events : List EmbeddingsEvent) :
    (executeEmbeddings c events).2.filterMap Effect.dispatched = loopDispatches chat events := by
  have hentered : Beside c (startEmbeddings c)
      (step (sequential chat) (start (sequential chat)) ⟨0, .own 0 .advance, .inMemory, none⟩).1 := by
    have hhedges : (sequential chat).hedges = false := by
      unfold Call.hedges sequential
      simp
    refine .going ?_ ?_
    · show CredentialResolver.new chat.snap.providers chat.snap.circuitBreaker = _
      rw [hc.providers, hc.breaker]
      rfl
    · show PhaseBeside c (.targets c.candidates) (if (sequential chat).hedges then _
        else Phase.targets chat.candidates)
      rw [hhedges, if_neg Bool.false_ne_true, hc.candidates]
      exact .targets fun target h => h
  have hstep (s : EmbeddingsState) (x : ExecState) (e : EmbeddingsEvent) (h : Beside c s x) :
      Beside c (embeddingsStep c s e).1 (step (sequential chat) x (eventOf e)).1 ∧
        (embeddingsStep c s e).2.filterMap Effect.dispatched =
          (step (sequential chat) x (eventOf e)).2.filterMap Effect.dispatched :=
    step_beside hc.sequential rfl h e
  have hrun := (Machine.run_lockstep hstep hentered events).2
  unfold executeEmbeddings loopDispatches dispatches execute
  rw [hrun, Machine.run, List.filterMap_append]
  rfl

end

/-! ### The plan -/

section

variable {g : Ingress} {id : String} {body : Json} {tenant project sessionId : Option String}
  {global spent : Reading}

/-- The request of the body. -/
def requestOf (id : String) (body : Json) (tenant project sessionId : Option String) : AiRequest :=
  embeddingsRequest id ((embeddingsModel body).getD "") tenant project sessionId

/-- The ways out of the front half. -/
inductive Admission (g : Ingress) (body : Json) (tenant : Option String) (request : AiRequest)
    (global spent : Reading) : EmbeddingsAdmitted × List TraceCall → Prop where
  | unnamed (h : embeddingsModel body = none) (requestId : String) (error : ExecError)
      (record : TraceRecord) (htenant : record.tenant = none) (hproject : record.project = none) :
      Admission g body tenant request global spent
        (.denied requestId error, [.recordTrace record])
  | overspent (hnamed : (embeddingsModel body).isSome)
      (h : g.overGlobalBudget global = none → g.overTenantBudget tenant spent ≠ none)
      (error : ExecError) :
      Admission g body tenant request global spent (denyEmbeddings request error)
  | refused (hnamed : (embeddingsModel body).isSome) (hglobal : g.overGlobalBudget global = none)
      (hspent : g.overTenantBudget tenant spent = none) (error : ExecError) :
      Admission g body tenant request global spent
        (denyEmbeddings (g.preRoute request).2 error)
  | planned (hnamed : (embeddingsModel body).isSome) (hglobal : g.overGlobalBudget global = none)
      (hspent : g.overTenantBudget tenant spent = none) {req : AiRequest}
      (hroute : g.preRoute request = (.proceed, req)) {resolved : CandidateResolution}
      (hresolved : g.resolveCandidates req.model = .ok resolved) {plan : RoutePlan}
      (hplan : g.planResolvedRoute req none resolved = .ok plan) :
      Admission g body tenant request global spent
        (.planned (g.embeddingsCall req plan resolved.unknown), [])

theorem planEmbeddings_admission :
    Admission g body tenant (requestOf id body tenant project sessionId) global spent
      (planEmbeddings g id body tenant project sessionId global spent) := by
  unfold planEmbeddings requestOf
  cases hmodel : embeddingsModel body with
  | none => exact .unnamed hmodel _ _ _ rfl rfl
  | some model =>
    have hnamed : (embeddingsModel body).isSome := by rw [hmodel]; rfl
    dsimp only
    rw [Option.getD_some]
    cases hglobal : g.overGlobalBudget global with
    | some error => exact .overspent hnamed (fun h => by rw [hglobal] at h; cases h) error
    | none =>
      dsimp only
      cases hspent : g.overTenantBudget tenant spent with
      | some error =>
        have hover : g.overTenantBudget
            (embeddingsRequest id model tenant project sessionId).tenant spent = some error := hspent
        rw [hover]
        exact .overspent hnamed (fun _ h => by rw [hspent] at h; cases h) error
      | none =>
        have hunder : g.overTenantBudget
            (embeddingsRequest id model tenant project sessionId).tenant spent = none := hspent
        rw [hunder]
        dsimp only
        have hrefused := @Admission.refused g body tenant
          (embeddingsRequest id model tenant project sessionId) global spent hnamed hglobal hspent
        cases hroute : g.preRoute (embeddingsRequest id model tenant project sessionId) with
        | mk outcome req =>
          rw [hroute] at hrefused
          cases outcome with
          | reject status message => exact hrefused _
          | proceed =>
            dsimp only
            cases hresolved : g.resolveCandidates req.model with
            | error error => exact hrefused _
            | ok resolved =>
              dsimp only
              cases hplan : g.planResolvedRoute req none resolved with
              | error error => exact hrefused _
              | ok plan => exact .planned hnamed hglobal hspent hroute hresolved hplan

/-- No client profile falls on the request, compression leaves it as it is, and strict mode
refuses its translation for no candidate. -/
structure Plain (g : Ingress) (request : AiRequest) (global spent : Reading) : Prop where
  compressed : (if g.compressToolResults then g.compressRequest request else request) = request
  profile : ∀ req, g.preRoute request = (.proceed, req) →
    g.applyRequestClientProfile req = .ok (none, req)
  translated : ∀ chat, planRequest g none request global spent = (.planned chat, []) →
    ∀ target ∈ chat.candidates, ¬ SchemaRefused chat target

theorem degrade_frame (plan : RoutePlan) (req : AiRequest) :
    (degrade plan req).tenant = req.tenant ∧
      sessionAffinityKey (degrade plan req) = sessionAffinityKey req := by
  unfold degrade
  split
  · exact ⟨rfl, rfl⟩
  · exact ⟨rfl, rfl⟩

theorem counterpart_of_plain {request req : AiRequest} (hplain : Plain g request global spent)
    (htenant : request.tenant = tenant) (hglobal : g.overGlobalBudget global = none)
    (hspent : g.overTenantBudget tenant spent = none)
    (hroute : g.preRoute request = (.proceed, req)) {resolved : CandidateResolution}
    (hresolved : g.resolveCandidates req.model = .ok resolved) {plan : RoutePlan}
    (hplan : g.planResolvedRoute req none resolved = .ok plan) :
    ∃ chat, planRequest g none request global spent = (.planned chat, []) ∧
      Counterpart (g.embeddingsCall req plan resolved.unknown) chat := by
  have hchat : planRequest g none request global spent =
      (.planned (g.plannedCall none req none (rejectScoped plan []) resolved.unknown), []) := by
    unfold planRequest
    rw [hglobal, htenant, hspent, hplain.compressed]
    dsimp only
    rw [hroute]
    dsimp only
    rw [hplain.profile req hroute]
    dsimp only
    rw [hresolved]
    dsimp only
    unfold CandidateResolution.scoped
    dsimp only
    rw [hplan]
  obtain ⟨hkept, hsession⟩ := degrade_frame (rejectScoped plan []) req
  refine ⟨_, hchat, rfl, rfl, rfl, rfl, rfl, ?_, hsession, hplain.translated _ hchat⟩
  funext providerId
  unfold Call.allowedAccounts Ingress.plannedCall Ingress.embeddingsCall
  dsimp only
  rw [hkept]

end

/-! ### Runs -/

def effectsOf (events : List EmbeddingsEvent) : EmbeddingsAdmitted → List Effect
  | .denied .. => []
  | .planned c => (executeEmbeddings c events).2

def tracesOf (events : List EmbeddingsEvent) : EmbeddingsAdmitted → List TraceCall
  | .denied .. => []
  | .planned c => (executeEmbeddings c events).2.filterMap (Effect.traceCall c)

/-- The request is answered. -/
def isComplete (events : List EmbeddingsEvent) : EmbeddingsAdmitted → Bool
  | .denied .. => true
  | .planned c => (executeEmbeddings c events).1.phase.isDone

def submitted : TraceOp → Option TraceRecord
  | .submit record => some record
  | .append _ => none

/-- One trace, with the tenant and the project of the caller, and submitted to the store, if there
is one. -/
def Traced (t : Traces) (tenant project : Option String) (calls : List TraceCall) : Prop :=
  ∃ record, calls.map TraceCall.record = [record] ∧ record.tenant = tenant ∧
    record.project = project ∧
    (Machine.run traceStep t calls).2.filterMap submitted = (t.store.map fun _ => record).toList

section

variable (t : Traces) (g : Ingress) (id : String) (body : Json)
  (tenant project sessionId : Option String) (global spent : Reading)
  (events : List EmbeddingsEvent)

/-- The controls that a run is under. -/
structure Controlled : Prop where
  dispatched : ∀ d ∈ (effectsOf events
      (planEmbeddings g id body tenant project sessionId global spent).1).filterMap
        Effect.dispatched,
    ∃ chat, planRequest g none (requestOf id body tenant project sessionId) global spent =
      (.planned chat, []) ∧ d ∈ loopDispatches chat events
  finished : (effectsOf events
      (planEmbeddings g id body tenant project sessionId global spent).1).filterMap
        Effect.finished =
    (effectsOf events
      (planEmbeddings g id body tenant project sessionId global spent).1).filterMap Effect.started
  traced : Traced t tenant project
    ((planEmbeddings g id body tenant project sessionId global spent).2 ++
      tracesOf events (planEmbeddings g id body tenant project sessionId global spent).1)

/-- The body names a model or the caller has no tenant and no project; the plugins leave both; and
with a store attached the plan does not come to its end without an account. -/
structure Attributable : Prop where
  named : embeddingsModel body = none → tenant = none ∧ project = none
  kept : (embeddingsModel body).isSome → g.overGlobalBudget global = none →
    g.overTenantBudget tenant spent = none →
    (g.preRoute (requestOf id body tenant project sessionId)).2.tenant = tenant ∧
      (g.preRoute (requestOf id body tenant project sessionId)).2.project = project
  stored : t.store.isSome → ∀ c calls,
    planEmbeddings g id body tenant project sessionId global spent = (.planned c, calls) →
      fruitless c events = false

end

section

variable {t : Traces} {tenant project : Option String}

theorem submitted_record (t : Traces) (record : TraceRecord) :
    (t.record record).2.filterMap submitted = [] := by
  unfold Traces.record
  split
  · rfl
  · rfl

theorem submitted_recordTraceTo (t : Traces) (record : TraceRecord) :
    (t.recordTraceTo record).2.filterMap submitted = (t.store.map fun _ => record).toList := by
  unfold Traces.recordTraceTo
  dsimp only
  rw [List.filterMap_append, submitted_record, List.append_nil]
  unfold Traces.submit
  cases t.store with
  | none => rfl
  | some records => rfl

theorem traced_recordTrace_iff (record : TraceRecord) :
    Traced t tenant project [.recordTrace record] ↔
      record.tenant = tenant ∧ record.project = project := by
  have hops : (Machine.run traceStep t [.recordTrace record]).2.filterMap submitted =
      (t.store.map fun _ => record).toList := by
    rw [Machine.run, Machine.run, List.append_nil]
    exact submitted_recordTraceTo t record
  constructor
  · rintro ⟨record', hrecord, htenant, hproject, -⟩
    cases hrecord
    exact ⟨htenant, hproject⟩
  · rintro ⟨htenant, hproject⟩
    exact ⟨record, rfl, htenant, hproject, hops⟩

theorem traced_logTrace_iff (record : TraceRecord) :
    Traced t tenant project [.logTrace record] ↔
      (record.tenant = tenant ∧ record.project = project) ∧ t.store = none := by
  have hops : (Machine.run traceStep t [.logTrace record]).2.filterMap submitted = [] := by
    rw [Machine.run, Machine.run, List.append_nil]
    exact submitted_record t record
  constructor
  · rintro ⟨record', hrecord, htenant, hproject, hstore⟩
    cases hrecord
    rw [hops] at hstore
    refine ⟨⟨htenant, hproject⟩, ?_⟩
    cases ht : t.store with
    | none => rfl
    | some records =>
      rw [ht] at hstore
      cases hstore
  · rintro ⟨⟨htenant, hproject⟩, hstore⟩
    refine ⟨record, rfl, htenant, hproject, ?_⟩
    rw [hops, hstore]
    rfl

end

theorem traced_planned_iff {t : Traces} {tenant project : Option String} (c : Call)
    {events : List EmbeddingsEvent} (hdone : (executeEmbeddings c events).1.phase.isDone = true) :
    Traced t tenant project ([] ++ tracesOf events (.planned c)) ↔
      (c.req.tenant = tenant ∧ c.req.project = project) ∧
        (t.store.isSome → fruitless c events = false) := by
  obtain ⟨status, hcall⟩ := executeEmbeddings_traceCalls c events hdone
  have hcalls : [] ++ tracesOf events (.planned c) = _ := hcall
  rw [hcalls]
  cases hfruitless : fruitless c events with
  | true =>
    rw [if_pos rfl, traced_logTrace_iff]
    refine and_congr_right' ?_
    cases t.store with
    | none => simp
    | some records => simp
  | false =>
    rw [if_neg Bool.false_ne_true, traced_recordTrace_iff]
    exact ⟨fun h => ⟨h, fun _ => rfl⟩, And.left⟩

/-- **When an embeddings request runs under the controls of the others.**  Where no client profile
and no strict translation is in the way, it makes the adapter calls of the loop of any other
request, finalises each of them once, and its one trace has the tenant and the project of the caller
and goes to the store, exactly when the trace is attributable. -/
theorem embeddings_controlled_iff (t : Traces) (g : Ingress) (id : String) (body : Json)
    (tenant project sessionId : Option String) (global spent : Reading)
    (events : List EmbeddingsEvent)
    (hcomplete : isComplete events
      (planEmbeddings g id body tenant project sessionId global spent).1 = true)
    (hplain : Plain g (requestOf id body tenant project sessionId) global spent) :
    Controlled t g id body tenant project sessionId global spent events ↔
      Attributable t g id body tenant project sessionId global spent events := by
  have hadmission : Admission g body tenant (requestOf id body tenant project sessionId) global
      spent (planEmbeddings g id body tenant project sessionId global spent) :=
    planEmbeddings_admission
  suffices htraced : Traced t tenant project
      ((planEmbeddings g id body tenant project sessionId global spent).2 ++
        tracesOf events (planEmbeddings g id body tenant project sessionId global spent).1) ↔
      Attributable t g id body tenant project sessionId global spent events by
    refine ⟨fun h => htraced.mp h.traced, fun h => ⟨?_, ?_, htraced.mpr h⟩⟩
    · generalize planEmbeddings g id body tenant project sessionId global spent = admitted
        at hadmission
      cases hadmission with
      | planned hnamed hglobal hspent hroute hresolved hplan =>
        intro d hd
        obtain ⟨chat, hchat, hcounterpart⟩ :=
          counterpart_of_plain hplain rfl hglobal hspent hroute hresolved hplan
        refine ⟨chat, hchat, ?_⟩
        rw [← embeddings_lockstep hcounterpart events]
        exact hd
      | _ => exact fun d hd => absurd hd List.not_mem_nil
    · cases hplanned : (planEmbeddings g id body tenant project sessionId global spent).1 with
      | denied requestId error => rfl
      | planned c =>
        rw [hplanned] at hcomplete
        exact executeEmbeddings_finished c events hcomplete
  generalize hresult : planEmbeddings g id body tenant project sessionId global spent = result
    at hadmission hcomplete ⊢
  cases hadmission with
  | unnamed hunnamed requestId error record htenant hproject =>
    refine (traced_recordTrace_iff record).trans ?_
    rw [htenant, hproject]
    constructor
    · rintro ⟨rfl, rfl⟩
      refine ⟨fun _ => ⟨rfl, rfl⟩, fun hnamed => ?_, fun _ c calls heq => ?_⟩
      · rw [hunnamed] at hnamed
        cases hnamed
      · cases hresult.symm.trans heq
    · intro h
      obtain ⟨rfl, rfl⟩ := h.named hunnamed
      exact ⟨rfl, rfl⟩
  | overspent hnamed hover error =>
    refine (traced_recordTrace_iff _).trans (iff_of_true ⟨rfl, rfl⟩ ⟨fun hnone => ?_, ?_, ?_⟩)
    · rw [hnone] at hnamed
      cases hnamed
    · exact fun _ hglobal hspent => absurd hspent (hover hglobal)
    · exact fun _ c calls heq => by cases hresult.symm.trans heq
  | refused hnamed hglobal hspent error =>
    refine (traced_recordTrace_iff _).trans ⟨fun hkept => ⟨fun hnone => ?_, fun _ _ _ => hkept, ?_⟩,
      fun h => h.kept hnamed hglobal hspent⟩
    · rw [hnone] at hnamed
      cases hnamed
    · exact fun _ c calls heq => by cases hresult.symm.trans heq
  | @planned hnamed hglobal hspent req hroute resolved hresolved plan hplan =>
    refine (traced_planned_iff _ hcomplete).trans ⟨fun h => ⟨fun hnone => ?_, ?_, ?_⟩, fun h => ⟨?_, ?_⟩⟩
    · rw [hnone] at hnamed
      cases hnamed
    · intro _ _ _
      rw [hroute]
      exact h.1
    · intro hstore c calls heq
      cases hresult.symm.trans heq
      exact h.2 hstore
    · have hkept := h.kept hnamed hglobal hspent
      rw [hroute] at hkept
      exact hkept
    · exact fun hstore => h.stored hstore _ _ hresult

/-! ### Two runs -/

def inputBody : Json := Json.mkObj [("model", .str "m"), ("input", .str "hello")]

/-- A log, and a store that is attached. -/
def stored : Traces := { log := fullLog, store := some [] }

/-- The first target answers. -/
def answeredEvents : List EmbeddingsEvent :=
  [{ now := 0, input := .advance }, { now := 0, input := .advance },
    { now := 0, input := .leased .static },
    { now := 0, input := .answered (.ok (Json.mkObj [])) (.ok ()) }]

theorem plain_plainIngress :
    Plain plainIngress (requestOf "r" inputBody (some "acme") none none) {} {} := by
  refine ⟨rfl, fun req _ => rfl, fun chat hchat target _ hrefused => ?_⟩
  cases hchat
  exact Bool.false_ne_true hrefused.1

theorem embeddings_controlled_answered :
    Controlled stored plainIngress "r" inputBody (some "acme") none none {} {} answeredEvents := by
  refine (embeddings_controlled_iff _ _ _ _ _ _ _ _ _ _ (by decide +kernel)
    plain_plainIngress).mpr ⟨fun hnone => ?_, fun _ _ _ => ⟨rfl, rfl⟩, fun _ c calls heq => ?_⟩
  · exact absurd hnone (by decide)
  · cases heq
    decide +kernel

/-- The accounts of both targets are cooling down. -/
def coolingEvents : List EmbeddingsEvent :=
  [{ now := 0, input := .other (.reportFailure "p" "a" "m" .rateLimited) },
    { now := 0, input := .other (.reportFailure "q" "b" "m" .rateLimited) },
    { now := 0, input := .advance }, { now := 0, input := .advance },
    { now := 0, input := .advance }, { now := 0, input := .advance },
    { now := 0, input := .advance }]

/-- The trace of a request that finds no account is not submitted to the store. -/
theorem cooling_not_stored :
    isComplete coolingEvents (planEmbeddings plainIngress "r" inputBody (some "acme") none none {}
        {}).1 = true ∧
      ¬ Controlled stored plainIngress "r" inputBody (some "acme") none none {} {}
        coolingEvents := by
  refine ⟨by decide +kernel, fun h => ?_⟩
  obtain ⟨record, -, -, -, hstore⟩ := h.traced
  have hlength := congrArg List.length hstore
  have hnone : ((Machine.run traceStep stored
      ((planEmbeddings plainIngress "r" inputBody (some "acme") none none {} {}).2 ++
        tracesOf coolingEvents (planEmbeddings plainIngress "r" inputBody (some "acme") none none {}
          {}).1)).2.filterMap submitted).length = 0 := by decide +kernel
  rw [hnone] at hlength
  cases hlength

end EmbeddingsControls

end Switchback
