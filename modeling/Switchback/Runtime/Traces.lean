import Switchback.Runtime.Admission
import Switchback.Runtime.Attempts

/-!
# Every request is traced

Each way out of the execution core records one trace, in the log and in the store.  The winner of
the race is recorded in the log only.
-/

namespace Switchback

open Lib

/-! ### The log and the store -/

/-- The ring of recent traces; `digest` is the number that the hash of a request id starts with. -/
structure TraceLog where
  ring : List TraceRecord := []
  cap : ℕ
  sampleRate : F64
  digest : String → ℕ
  cap_pos : 0 < cap
  ring_le : ring.length ≤ cap

namespace TraceLog

def new (cap : ℕ) (sampleRate : F64) (digest : String → ℕ) : TraceLog where
  cap := max cap 1
  sampleRate := Fp.clamp sampleRate Fp.zero (Fp.ofNat 1)
  digest := digest
  cap_pos := Nat.lt_of_lt_of_le Nat.zero_lt_one (Nat.le_max_right _ _)
  ring_le := Nat.zero_le _

/-- Is the request traced, by a stable hash of its id? -/
def sampled (log : TraceLog) (requestId : String) : Bool :=
  if Fp.le (Fp.ofNat 1) log.sampleRate then true
  else if Fp.le log.sampleRate Fp.zero then false
  else Fp.lt (Fp.ofNat (log.digest requestId / 2 ^ 11) / Fp.ofNat (2 ^ 53)) log.sampleRate

/-- Append a record; the oldest makes room. -/
def append (log : TraceLog) (record : TraceRecord) : TraceLog :=
  { log with
    ring := (if log.ring.length = log.cap then log.ring.drop 1 else log.ring) ++ [record]
    ring_le := by
      have hpos := log.cap_pos
      have hle := log.ring_le
      split
      · rw [List.length_append, List.length_drop, List.length_singleton]
        omega
      · rw [List.length_append, List.length_singleton]
        omega }

end TraceLog

/-- The log, and the records that were submitted to the store if one is attached. -/
structure Traces where
  log : TraceLog
  store : Option (List TraceRecord) := none

inductive TraceOp where
  | submit (record : TraceRecord)
  | append (record : TraceRecord)

namespace Traces

def submit (t : Traces) (record : TraceRecord) : Traces × List TraceOp :=
  match t.store with
  | none => (t, [])
  | some records => ({ t with store := some (records ++ [record]) }, [.submit record])

/-- A record goes to the log if its request is sampled. -/
def record (t : Traces) (record : TraceRecord) : Traces × List TraceOp :=
  if t.log.sampled record.requestId then
    ({ t with log := t.log.append record }, [.append record])
  else (t, [])

/-- A failed write of the store is only warned of. -/
def recordTraceTo (t : Traces) (record : TraceRecord) : Traces × List TraceOp :=
  let (t, submitted) := t.submit record
  let (t, appended) := t.record record
  (t, submitted ++ appended)

end Traces

def traceStep (t : Traces) : TraceCall → Traces × List TraceOp
  | .recordTrace record => t.recordTraceTo record
  | .logTrace record => t.record record

/-! ### What a request records -/

/-- The traces among the effects of an execution. -/
def Effect.traceCall (c : Call) : Effect → Option TraceCall
  | .recordTrace status streamed => some (.recordTrace (c.req.traceRecord status streamed))
  | .logTrace status streamed => some (.logTrace (c.req.traceRecord status streamed))
  | _ => none

/-- What the planned call records in a run. -/
def Call.traceCalls (c : Call) (events : List Event) : List TraceCall :=
  (execute c events).2.filterMap (Effect.traceCall c)

namespace Admitted

def traceCalls (events : List Event) : Admitted → List TraceCall
  | .denied .. => []
  | .planned c => c.traceCalls events

/-- The request is answered, and its stream, if any, drained or dropped. -/
def isComplete (events : List Event) : Admitted → Bool
  | .denied .. => true
  | .planned c => (execute c events).1.phase.isDone

end Admitted

/-- The answer wins the race, and the usage of its response was written. -/
def hedgeWin (c : Call) : Phase → Input → Bool
  | .racing _ racers, .own i (.collected items (.ok ())) =>
      match racers[i]? with
      | some { phase := .collecting _, .. } =>
          match collectResponse c.fromStr items c.req.id c.req.model c.snap.maxResponseBytes with
          | .ok _ => true
          | .error _ => false
      | _ => false
  | _, _ => false

/-- Is the request answered by the race? -/
def Admitted.hedgeWon (events : List Event) : Admitted → Bool
  | .denied .. => false
  | .planned c => (trail c events).any fun v => hedgeWin c v.1.phase v.2.input

/-! ### A run records once -/

section Calls

variable {c : Call} {r : CredentialResolver} {e : Event} {i : ℕ} {phase phase' : Phase}
  {answer : Answer} {effects : List Effect}

theorem cancelRacer_traceCall (racers : List Racer) :
    (racers.flatMap cancelRacer).filterMap (Effect.traceCall c) = [] := by
  rw [List.filterMap_flatMap]
  refine List.flatMap_eq_nil_iff.2 fun racer _ => ?_
  unfold cancelRacer
  split <;> rfl

theorem winOutcome_traceCall (target : ExecutionTarget) (accountId : String)
    (response : AiResponse) (usage : Except String Unit) :
    (winOutcome target accountId response usage).2.filterMap (Effect.traceCall c) =
      match usage with
      | .error _ => [.recordTrace (c.req.traceRecord 500 false)]
      | .ok () => [.logTrace (c.req.traceRecord 200 false)] := by
  cases usage <;> rfl

theorem RacerMove.traceCall {racer : Racer} {phase : RacerPhase}
    (h : RacerMove c r e racer answer phase effects) :
    effects.filterMap (Effect.traceCall c) = [] := by
  cases h <;> rfl

/-- How a step records: not at all until the request is answered, and then once. -/
def Records (c : Call) (won : Bool) (phase' : Phase) (calls : List TraceCall) : Prop :=
  (phase'.isDone = false ∧ calls = [] ∧ won = false) ∨
    (phase'.isDone = true ∧ ∃ status streamed,
      calls = [if won then .logTrace (c.req.traceRecord status streamed)
        else .recordTrace (c.req.traceRecord status streamed)])

theorem hedgeWin_records {s : ExecState} (h : hedgeWin c s.phase e.input = true) :
    Records c true (step c s e).1.phase ((step c s e).2.filterMap (Effect.traceCall c)) := by
  unfold hedgeWin at h
  split at h
  · next startedAt racers i items hphase hinput =>
    have hstep : step c s e = raceStep c s startedAt racers e i (.collected items (.ok ())) := by
      unfold step
      rw [hinput]
      dsimp only
      rw [hphase]
    split at h
    · next hracer =>
      split at h
      · next response hresponse =>
        obtain ⟨hdone, heffects⟩ := raceStep_won hracer rfl hresponse
        rw [hstep, hdone, heffects]
        refine Or.inr ⟨rfl, 200, false, ?_⟩
        rw [List.filterMap_append, List.filterMap_append, cancelRacer_traceCall,
          winOutcome_traceCall]
        rfl
      · cases h
    · cases h
  · cases h

theorem hedgeWin_of_collected {startedAt : ℕ} {racers : List Racer} {racer : Racer}
    {accountId : String} {items : List StreamItem} {response : AiResponse}
    (h : racers[i]? = some racer) (hphase : racer.phase = .collecting accountId)
    (hcollect : collectResponse c.fromStr items c.req.id c.req.model c.snap.maxResponseBytes =
      .ok response) :
    hedgeWin c (.racing startedAt racers) (.own i (.collected items (.ok ()))) = true := by
  obtain ⟨target, phase⟩ := racer
  dsimp only at hphase
  subst hphase
  unfold hedgeWin
  dsimp only
  rw [h]
  dsimp only
  rw [hcollect]

/-- A move that is not a hedge win. -/
theorem ExecMove.records (h : ExecMove c r e i phase answer phase' effects)
    (hwin : hedgeWin c phase (.own i answer) = false) :
    Records c false phase' (effects.filterMap (Effect.traceCall c)) := by
  cases h with
  | enter answer startedAt => split <;> exact Or.inl ⟨rfl, rfl, rfl⟩
  | race startedAt h hmove =>
    rw [hmove.traceCall]
    unfold racePhase
    split <;> exact Or.inl ⟨rfl, rfl, rfl⟩
  | win startedAt h hphase usage hcollect =>
    -- a winner whose usage write fails is an error of the request, and traced as one
    cases usage with
    | error message =>
      refine Or.inr ⟨rfl, 500, false, ?_⟩
      rw [List.filterMap_append, List.filterMap_append, cancelRacer_traceCall,
        winOutcome_traceCall]
      rfl
    | ok u =>
      rw [hedgeWin_of_collected h hphase hcollect] at hwin
      cases hwin
  | exhaust error => exact Or.inr ⟨rfl, _, _, rfl⟩
  | capUnknown target rest error => exact Or.inr ⟨rfl, _, _, rfl⟩
  | refuse work accountId lease mint error => exact Or.inr ⟨rfl, _, _, rfl⟩
  | answered a => split <;> exact Or.inl ⟨rfl, rfl, rfl⟩
  | fail h hfallback => exact Or.inr ⟨rfl, _, _, rfl⟩
  | collect a h => exact Or.inr ⟨rfl, _, _, rfl⟩
  | unrecorded a h message error => exact Or.inr ⟨rfl, _, _, rfl⟩
  | streamFail a guard item h => exact Or.inr ⟨rfl, _, _, rfl⟩
  | streamEnd a guard item usage h => exact Or.inr ⟨rfl, _, _, rfl⟩
  | drop a guard => exact Or.inr ⟨rfl, _, _, rfl⟩
  | _ => exact Or.inl ⟨rfl, rfl, rfl⟩

/-- **One step** of a request that is not answered yet. -/
theorem step_records {s : ExecState} (hs : s.phase.isDone = false) :
    Records c (hedgeWin c s.phase e.input) (step c s e).1.phase
      ((step c s e).2.filterMap (Effect.traceCall c)) := by
  cases hwin : hedgeWin c s.phase e.input with
  | true => exact hedgeWin_records hwin
  | false =>
    rcases step_cases c s e with ⟨hphase, heffects⟩ | ⟨i, answer, he, hmove⟩
    · rw [hphase, heffects]
      exact Or.inl ⟨hs, rfl, rfl⟩
    · rw [he] at hwin
      exact hmove.records hwin

theorem ExecMove.not_done {outcome : ExecOutcome} :
    ¬ ExecMove c r e i (.done outcome) answer phase' effects := by
  intro h
  cases h with
  | fallOver h hfallback => cases h
  | fail h hfallback => cases h

theorem step_done {s : ExecState} (hs : s.phase.isDone = true) :
    (step c s e).1.phase.isDone = true ∧ (step c s e).2 = [] ∧
      hedgeWin c s.phase e.input = false := by
  obtain ⟨outcome, houtcome⟩ : ∃ outcome, s.phase = .done outcome := by
    cases hphase : s.phase with
    | done outcome => exact ⟨outcome, rfl⟩
    | _ =>
      rw [hphase] at hs
      cases hs
  rw [houtcome]
  rcases step_cases c s e with ⟨hphase, heffects⟩ | ⟨i, answer, -, hmove⟩
  · rw [hphase, houtcome]
    exact ⟨rfl, heffects, rfl⟩
  · rw [houtcome] at hmove
    exact absurd hmove ExecMove.not_done

end Calls

section Runs

variable (c : Call)

theorem run_done {s : ExecState} (hs : s.phase.isDone = true) (events : List Event) :
    (Machine.run (step c) s events).1.phase.isDone = true ∧
      (Machine.run (step c) s events).2 = [] ∧
      ((Machine.visited (fun s e => (step c s e).1) s events).any fun v =>
        hedgeWin c v.1.phase v.2.input) = false := by
  induction events generalizing s with
  | nil => exact ⟨hs, rfl, rfl⟩
  | cons e events ih =>
    obtain ⟨hdone, heffects, hwin⟩ := step_done (c := c) (e := e) hs
    obtain ⟨hend, hrest, hwins⟩ := ih hdone
    refine ⟨hend, ?_, ?_⟩
    · rw [Machine.run, heffects, hrest]
      rfl
    · rw [Machine.visited, List.any_cons, hwins, hwin]
      rfl

/-- **Every run** from a state that is not done records as one step does. -/
theorem run_records {s : ExecState} (hs : s.phase.isDone = false) (events : List Event) :
    Records c
      ((Machine.visited (fun s e => (step c s e).1) s events).any fun v =>
        hedgeWin c v.1.phase v.2.input)
      (Machine.run (step c) s events).1.phase
      ((Machine.run (step c) s events).2.filterMap (Effect.traceCall c)) := by
  induction events generalizing s with
  | nil => exact Or.inl ⟨hs, rfl, rfl⟩
  | cons e events ih =>
    rw [Machine.visited, List.any_cons, Machine.run, List.filterMap_append]
    dsimp only
    -- the first step answers the request, or the rest of the run does
    rcases step_records (c := c) (e := e) hs with ⟨hgoing, hnone, hwin⟩ |
      ⟨hdone, status, streamed, hcall⟩
    · rw [hnone, hwin, List.nil_append, Bool.false_or]
      exact ih hgoing
    · obtain ⟨hend, heffects, hwins⟩ := run_done c hdone events
      rw [heffects, hwins, hcall, Bool.or_false]
      exact Or.inr ⟨hend, status, streamed, rfl⟩

theorem planRequest_traceCalls {g : Ingress} {scope : Option (List String)} {req : AiRequest}
    {global tenant : Reading} {events : List Event}
    (h : (planRequest g scope req global tenant).1.isComplete events = true) :
    ∃ record, record.requestId = (planRequest g scope req global tenant).1.req.id ∧
      (planRequest g scope req global tenant).2 ++
          (planRequest g scope req global tenant).1.traceCalls events =
        [if (planRequest g scope req global tenant).1.hedgeWon events then .logTrace record
          else .recordTrace record] := by
  rcases planRequest_calls g scope req global tenant with ⟨req', error, hplan⟩ | ⟨c, hplan⟩
  · rw [hplan]
    exact ⟨_, rfl, rfl⟩
  · rw [hplan] at h ⊢
    rcases run_records c (s := start c) rfl events with ⟨hgoing, -, -⟩ |
      ⟨-, status, streamed, hcall⟩
    · have hdone : (execute c events).1.phase.isDone = true := h
      unfold execute at hdone
      rw [hgoing] at hdone
      cases hdone
    · exact ⟨c.req.traceRecord status streamed, rfl, hcall⟩

end Runs

/-! ### The log and the store -/

/-- What a run does to the log and the store; `global` and `tenant` are the states of the ledger at
the two spend checks. -/
def runTraces (t : Traces) (g : Ingress) (scope : Option (List String)) (req : AiRequest)
    (global tenant : Reading) (events : List Event) : Traces × List TraceOp :=
  let admitted := planRequest g scope req global tenant
  Machine.run traceStep t (admitted.2 ++ admitted.1.traceCalls events)

/-- One record is submitted to the store, if there is one, and appended to the log. -/
def TracedOnce (t : Traces) (result : Traces × List TraceOp) : Prop :=
  ∃ record, result.2 = (t.store.map fun _ => TraceOp.submit record).toList ++ [.append record] ∧
    result.1 = { log := t.log.append record, store := t.store.map (· ++ [record]) }

theorem tracedOnce_recordTraceTo_iff (t : Traces) (record : TraceRecord) :
    TracedOnce t (t.recordTraceTo record) ↔ t.log.sampled record.requestId = true := by
  obtain ⟨log, store⟩ := t
  unfold TracedOnce Traces.recordTraceTo Traces.submit Traces.record
  cases hsampled : log.sampled record.requestId with
  | true =>
    refine iff_of_true ⟨record, ?_⟩ rfl
    cases store with
    | none => simp [hsampled]
    | some records => simp [hsampled]
  | false =>
    refine iff_of_false ?_ Bool.false_ne_true
    rintro ⟨record', hops, -⟩
    cases store with
    | none => simp [hsampled] at hops
    | some records => simp [hsampled] at hops

/-- A record that goes to the log only is traced if it is sampled and there is no store. -/
theorem tracedOnce_record_iff (t : Traces) (record : TraceRecord) :
    TracedOnce t (t.record record) ↔
      t.log.sampled record.requestId = true ∧ t.store = none := by
  obtain ⟨log, store⟩ := t
  unfold TracedOnce Traces.record
  constructor
  · rintro ⟨record', hops, -⟩
    cases hsampled : log.sampled record.requestId with
    | true =>
      refine ⟨rfl, ?_⟩
      cases store with
      | none => rfl
      | some records => simp [hsampled] at hops
    | false => simp [hsampled] at hops
  · rintro ⟨hsampled, rfl⟩
    exact ⟨record, by simp [hsampled], by simp [hsampled]⟩

/-- **A request is traced once, in the log and in the store**, exactly when the log samples its id
and, with a store attached, the request is not answered by the race. -/
theorem traced_once_iff (t : Traces) (g : Ingress) (scope : Option (List String))
    (req : AiRequest) (global tenant : Reading) (events : List Event)
    (hcomplete : (planRequest g scope req global tenant).1.isComplete events = true) :
    TracedOnce t (runTraces t g scope req global tenant events) ↔
      t.log.sampled (planRequest g scope req global tenant).1.req.id = true ∧
        (t.store = none ∨ (planRequest g scope req global tenant).1.hedgeWon events = false) := by
  obtain ⟨record, hid, hcalls⟩ := planRequest_traceCalls hcomplete
  have hrun (call : TraceCall) : Machine.run traceStep t [call] = traceStep t call := by
    simp [Machine.run]
  unfold runTraces
  dsimp only
  rw [hcalls, hrun, ← hid]
  cases (planRequest g scope req global tenant).1.hedgeWon events with
  | true =>
    have hstore := tracedOnce_record_iff t record
    simpa [traceStep] using hstore
  | false =>
    have hboth := tracedOnce_recordTraceTo_iff t record
    simpa [traceStep] using hboth

/-- The call of the race, for any request. -/
def plainIngress : Ingress where
  snap := (plainCall true).snap
  resolveCandidates := fun _ => .ok { candidates := (plainCall true).candidates }
  planResolvedRoute := fun req _ resolved =>
    .ok { candidates := resolved.candidates, decision := { requestId := req.id, strategy := "" } }
  fromStr := fun _ => .error ""

def fullLog : TraceLog := .new 10 (Fp.ofNat 1) fun _ => 0

/-- Without a store the winner of the race is traced. -/
theorem traced_once_iff_of_race :
    (planRequest plainIngress none (plainCall true).req {} {}).1.isComplete racedEvents = true ∧
      TracedOnce { log := fullLog }
        (runTraces { log := fullLog } plainIngress none (plainCall true).req {} {} racedEvents) :=
  have hcomplete : (planRequest plainIngress none (plainCall true).req {} {}).1.isComplete
      racedEvents = true := by
    decide +kernel
  ⟨hcomplete, (traced_once_iff _ _ _ _ _ _ _ hcomplete).2 ⟨by decide +kernel, Or.inl rfl⟩⟩

/-- With a store the winner of the race is appended to the log and not submitted. -/
theorem not_traced_once_of_race :
    (planRequest plainIngress none (plainCall true).req {} {}).1.isComplete racedEvents = true ∧
      fullLog.sampled (plainCall true).req.id = true ∧
      ¬ TracedOnce { log := fullLog, store := some [] }
        (runTraces { log := fullLog, store := some [] } plainIngress none (plainCall true).req {} {}
          racedEvents) := by
  refine ⟨by decide +kernel, by decide +kernel, ?_⟩
  rintro ⟨record, hops, -⟩
  -- one operation, the append, where two are due
  have hlength := congrArg List.length hops
  have hone : (runTraces { log := fullLog, store := some [] } plainIngress none (plainCall true).req
      {} {} racedEvents).2.length = 1 := by decide +kernel
  rw [hone] at hlength
  simp at hlength

end Switchback
