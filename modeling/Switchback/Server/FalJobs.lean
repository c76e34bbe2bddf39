import Switchback.Server.Workloads
import Switchback.Lib.Machine

/-!
# A fal job and the calls that cancel it

The runner submits a job, polls its status, captures the result and records the end; clients may
cancel the job meanwhile.  Every step is one critical section on the store, with what was awaited
before it as an argument.
-/

namespace Switchback

namespace Workloads

open Lib

/-- A status that ends a job. -/
def JobStatus.terminal (s : JobStatus) : Prop := s = .succeeded ∨ s = .failed ∨ s = .cancelled

instance : DecidablePred JobStatus.terminal := fun s =>
  inferInstanceAs (Decidable (s = .succeeded ∨ s = .failed ∨ s = .cancelled))

/-! ### The runner -/

/-- What the runner carries after the submission. -/
structure Run where
  requestId : String
  events : List JobEvent
  runningEmitted : Bool := false
  left : ℕ := 120

/-- Where the runner is. -/
inductive Runner where
  | submitting (events : List JobEvent)
  | guarding (run : Run)
  | checking (run : Run)
  | polling (run : Run)
  | capturing (run : Run)
  | removing (result : Except WorkloadError JobRecord)
  | removingCancelled
  | finished (result : Except WorkloadError JobRecord)

/-- What the runner waited for. -/
inductive RunnerInput where
  | submitted (answer : Except WorkloadError String)
  | guarded (answer : Except WorkloadError Unit)
  | checked
  | polled (answer : Except WorkloadError String)
  | captured (result : Except WorkloadError Json) (fetch : FalOutputRef → Except WorkloadError Fetched)
  | removed

def toAsciiUppercase (s : String) : String :=
  String.ofList (s.toList.map fun c => if 'a' ≤ c ∧ c ≤ 'z' then Char.ofNat (c.toNat - 32) else c)

/-- What a polled status means. -/
inductive PollStatus where
  | waiting
  | running
  | completed
  | error (message : String)

/-- The statuses of `poll_fal_status`. -/
def pollStatus (requestId status : String) : PollStatus :=
  match toAsciiUppercase status with
  | "IN_QUEUE" | "QUEUED" => .waiting
  | "IN_PROGRESS" | "RUNNING" => .running
  | "COMPLETED" | "SUCCEEDED" => .completed
  | "FAILED" | "ERROR" => .error s!"fal request `{requestId}` failed"
  | "CANCELLED" | "CANCELED" => .error s!"fal request `{requestId}` was cancelled"
  | other => .error s!"fal request `{requestId}` returned unsupported status `{other}`"

namespace FalCall

/-- `persist_fal_failure` up to its second section: the failed job over what is stored. -/
def persistFailure (c : FalCall) (s : WorkloadStore) (events : List JobEvent) (stage : String)
    (error : WorkloadError) (now : ℕ) : WorkloadStore × Runner :=
  (s.insertJob (c.record .failed now [] (events ++ [failed stage now])) [], .removing (.error error))

/-- The end of a captured job. -/
def persistSuccess (c : FalCall) (s : WorkloadStore) (events : List JobEvent)
    (artifacts : List StoredArtifact) (now : ℕ) : WorkloadStore × Runner :=
  let records := artifacts.map StoredArtifact.record
  let job := c.record .succeeded now records
    (events ++ records.map (artifactReady now) ++ [succeeded now])
  (s.insertJob job artifacts, .removing (.ok job))

/-- One section of `create_fal_image_job`. -/
def step (c : FalCall) (s : WorkloadStore) (now : ℕ) : Runner → RunnerInput → WorkloadStore × Runner
  | .submitting events, .submitted (.error e) => c.persistFailure s events "queue_submission" e now
  | .submitting events, .submitted (.ok requestId) =>
    if (Text.trim requestId).isEmpty then
      c.persistFailure s events "queue_submission_response"
        (.upstream "fal queue submission returned an empty request_id") now
    else
      let run : Run := { requestId := requestId, events := events ++ [queued requestId now] }
      (s.insertFalRun (c.record .queued now [] run.events)
        { providerId := c.providerId, model := c.model, requestId := requestId }, .guarding run)
  | .guarding run, .guarded (.error e) => c.persistFailure s run.events "poll_status" e now
  | .guarding run, .guarded (.ok _) => (s, .checking run)
  | .checking run, .checked =>
    if run.left = 0 then
      c.persistFailure s run.events "poll_status"
        (.upstream s!"fal request `{run.requestId}` did not complete before timeout") now
    else if (s.job c.jobId).any fun job => job.status = .cancelled then (s, .removingCancelled)
    else (s, .polling { run with left := run.left - 1 })
  | .polling run, .polled (.error e) => c.persistFailure s run.events "poll_status" e now
  | .polling run, .polled (.ok status) =>
    match pollStatus run.requestId status with
    | .waiting => (s, .checking run)
    | .running =>
      if run.runningEmitted then (s, .checking run)
      else
        let run := { run with
          events := run.events ++ [running run.requestId now], runningEmitted := true }
        match s.updateJobEvent c.jobId .running (running run.requestId now) with
        | .ok s' => (s', .checking run)
        | .error e => c.persistFailure s run.events "poll_status" e now
    | .completed => (s, .capturing run)
    | .error message => c.persistFailure s run.events "poll_status" (.upstream message) now
  | .capturing run, .captured result fetch =>
    match c.capture run.requestId result fetch with
    | .error e => c.persistFailure s run.events "result_or_artifact_capture" e now
    | .ok artifacts => c.persistSuccess s run.events artifacts now
  | .removing result, .removed => (s.removeFalRun c.jobId, .finished result)
  | .removingCancelled, .removed =>
    let s' := s.removeFalRun c.jobId
    (s', .finished (match s'.job c.jobId with
      | some job => .ok job
      | none => .error (.internal "cancelled fal job disappeared")))
  | runner, _ => (s, runner)

end FalCall

/-- A call of `cancel_job`: with the control it read, while it waits for a credential and the guard;
after it has marked the job, while it waits for fal; and its result. -/
inductive Cancel where
  | preparing (control : FalRunControl)
  | sending
  | done (result : Except WorkloadError JobRecord)

/-- The first section of `cancel_job`. -/
def startCancel (s : WorkloadStore) (id : String) : Cancel :=
  match s.jobs.get id with
  | none => .done (.error (.invalidRequest "job not found"))
  | some job =>
    if job.status = .cancelled then .done (.ok job)
    else
      match s.falRuns.get id with
      | none => .done (.error (.invalidRequest "job is not cancellable"))
      | some control =>
        if job.status = .succeeded ∨ job.status = .failed then
          .done (.error (.invalidRequest "terminal job cannot be cancelled"))
        else .preparing control

/-- The second section: once the provider is found, the credential resolved and the cancel URL
guarded, the job is marked. -/
def markCancelled (s : WorkloadStore) (id : String) (control : FalRunControl)
    (answer : Except WorkloadError Unit) (now : ℕ) : WorkloadStore × Cancel :=
  match answer with
  | .error e => (s, .done (.error e))
  | .ok _ =>
    match s.updateJobEvent id .cancelled (FalCall.cancelled control.requestId now) with
    | .error e => (s, .done (.error e))
    | .ok s' => (s', .sending)

/-- The end of a call. -/
def finishCancel (s : WorkloadStore) (id : String) (answer : Except WorkloadError Unit) : Cancel :=
  match answer with
  | .error e => .done (.error e)
  | .ok _ =>
    match s.job id with
    | some job => .done (.ok job)
    | none => .done (.error (.internal "cancelled job disappeared"))

structure World where
  store : WorkloadStore
  runner : Runner
  cancels : List Cancel

/-- One section of the runner or of one of the calls. -/
inductive Input where
  | run (input : RunnerInput) (now : ℕ)
  | call
  | mark (i : ℕ) (answer : Except WorkloadError Unit) (now : ℕ)
  | answer (i : ℕ) (answer : Except WorkloadError Unit)

namespace World

/-- The job has been posted and is not in the store. -/
def start (c : FalCall) (s : WorkloadStore) : World where
  store := s
  runner := .submitting [c.accepted]
  cancels := []

def step (c : FalCall) (w : World) : Input → World
  | .run input now =>
    let (store, runner) := c.step w.store now w.runner input
    { w with store := store, runner := runner }
  | .call => { w with cancels := w.cancels ++ [startCancel w.store c.jobId] }
  | .mark i answer now =>
    match w.cancels[i]? with
    | some (.preparing control) =>
      let (store, cancel) := markCancelled w.store c.jobId control answer now
      { w with store := store, cancels := w.cancels.set i cancel }
    | _ => w
  | .answer i answer =>
    match w.cancels[i]? with
    | some .sending => { w with cancels := w.cancels.set i (finishCancel w.store c.jobId answer) }
    | _ => w

/-- The job as clients see it. -/
def job (c : FalCall) (w : World) : Option JobRecord := w.store.job c.jobId

end World

/-! ### What clients see -/

/-- The job stays, a terminal status stays, and no event disappears. -/
def Keeps (c : FalCall) (w w' : World) : Prop :=
  ∀ job, w.job c = some job → ∃ job', w'.job c = some job' ∧
    (job.status.terminal → job'.status = job.status) ∧ job.events <+: job'.events

theorem Keeps.refl (c : FalCall) (w : World) : Keeps c w w := fun job h =>
  ⟨job, h, fun _ => rfl, List.prefix_rfl⟩

variable {c : FalCall} {w : World} {s : WorkloadStore}

theorem Keeps.trans {u v : World} (h : Keeps c u v) (h' : Keeps c v w) : Keeps c u w := by
  intro job hjob
  obtain ⟨job', hjob', hstatus, hevents⟩ := h job hjob
  obtain ⟨job'', hjob'', hstatus', hevents'⟩ := h' job' hjob'
  refine ⟨job'', hjob'', fun hterminal => ?_, hevents.trans hevents'⟩
  have hsame := hstatus hterminal
  rw [hstatus' (by rwa [hsame]), hsame]

theorem keeps_of_job_eq {w' : World} (h : w'.job c = w.job c) : Keeps c w w' := by
  intro job hjob
  exact ⟨job, h.trans hjob, fun _ => rfl, List.prefix_rfl⟩

/-- The sections in which the runner writes over its job. -/
def writes : Runner → RunnerInput → Bool
  | .guarding _, .guarded (.error _) => true
  | .checking run, .checked => run.left == 0
  | .polling _, .polled (.error _) => true
  | .polling run, .polled (.ok status) =>
    match pollStatus run.requestId status with
    | .waiting | .completed => false
    | .running => !run.runningEmitted
    | .error _ => true
  | .capturing _, .captured _ _ => true
  | _, _ => false

/-- The runner does not write over a cancelled job, and a call does not mark a finished one. -/
def Ok (c : FalCall) (w : World) : Input → Prop
  | .run input _ => writes w.runner input = true →
      ∀ job, w.job c = some job → job.status ≠ .cancelled
  | .mark i answer _ => ∀ control, w.cancels[i]? = some (.preparing control) → answer = .ok () →
      ∀ job, w.job c = some job → job.status ≠ .succeeded ∧ job.status ≠ .failed
  | .call | .answer _ _ => True

/-! ### Sections on the store -/

namespace WorkloadStore

variable (s : WorkloadStore)

@[simp] theorem job_insertJob (job : JobRecord) (as : List StoredArtifact) :
    (s.insertJob job as).job job.id = some job := by
  simp [WorkloadStore.job, insertJob]

@[simp] theorem job_insertFalRun (job : JobRecord) (control : FalRunControl) :
    (s.insertFalRun job control).job job.id = some job := by
  simp [WorkloadStore.job, insertFalRun]

theorem updateJobEvent_eq {s : WorkloadStore} {id : String} {job : JobRecord}
    (h : s.job id = some job) (status : JobStatus) (event : JobEvent) :
    ∃ s', s.updateJobEvent id status event = .ok s' ∧
      s'.job id = some (job.withEvent status event) := by
  refine ⟨{ s with jobs := s.jobs.insert id (job.withEvent status event) }, ?_, ?_⟩
  · rw [updateJobEvent, show s.jobs.get id = some job from h]
  · simp [WorkloadStore.job]

end WorkloadStore

/-- What the runner carries between its submission and its end. -/
def Runner.run : Runner → Option Run
  | .guarding run | .checking run | .polling run | .capturing run => some run
  | .submitting _ | .removing _ | .removingCancelled | .finished _ => none

/-- What a section of the runner does to the stored job. -/
inductive Effect (run : Run) (before after : JobRecord) (next : Runner) : Prop where
  | ended (status : after.status = .failed ∨ after.status = .succeeded)
      (events : run.events <+: after.events) (none : next.run = none)
  | ran (e : JobEvent) (after_eq : after = before.withEvent .running e)
      (next_run : ∃ run', next.run = some run' ∧ run'.events = run.events ++ [e])

theorem effect_persistFailure (c : FalCall) (s : WorkloadStore) {run : Run} {events : List JobEvent}
    (h : run.events <+: events) (stage : String) (e : WorkloadError) (now : ℕ) (before : JobRecord) :
    ∃ after, (c.persistFailure s events stage e now).1.job c.jobId = some after ∧
      Effect run before after (c.persistFailure s events stage e now).2 :=
  ⟨_, WorkloadStore.job_insertJob s _ _,
    .ended (.inl rfl) (h.trans (List.prefix_append _ _)) rfl⟩

/-- **A section of the runner** after its submission leaves the job alone and carries on with the
same events, or writes over it. -/
theorem step_effect (c : FalCall) (now : ℕ) {runner : Runner}
    (input : RunnerInput) {job : JobRecord} (hjob : s.job c.jobId = some job)
    (hsub : ∀ events, runner ≠ .submitting events) :
    (writes runner input = false ∧ (c.step s now runner input).1.job c.jobId = some job ∧
      ∀ run', (c.step s now runner input).2.run = some run' →
        ∃ run, runner.run = some run ∧ run'.events = run.events) ∨
    writes runner input = true ∧ ∃ run, runner.run = some run ∧
      ∃ after, (c.step s now runner input).1.job c.jobId = some after ∧
        Effect run job after (c.step s now runner input).2 := by
  have hidle : (s, runner).1.job c.jobId = some job ∧ ∀ run', (s, runner).2.run = some run' →
      ∃ run, runner.run = some run ∧ run'.events = run.events :=
    ⟨hjob, fun run' hrun => ⟨run', hrun, rfl⟩⟩
  cases runner with
  | submitting events => exact absurd rfl (hsub events)
  | guarding run =>
    cases input with
    | guarded answer =>
      cases answer with
      | error e =>
        exact .inr ⟨rfl, run, rfl, effect_persistFailure c s List.prefix_rfl _ e now job⟩
      | ok _ => exact .inl ⟨rfl, hjob, fun run' h => ⟨run, rfl, by cases h; rfl⟩⟩
    | _ => exact .inl ⟨rfl, hidle⟩
  | checking run =>
    cases input with
    | checked =>
      by_cases hleft : run.left = 0
      · refine .inr ⟨by simp [writes, hleft], run, rfl, ?_⟩
        simp only [FalCall.step, if_pos hleft]
        exact effect_persistFailure c s List.prefix_rfl _ _ now job
      · refine .inl ⟨by simp [writes, hleft], ?_⟩
        simp only [FalCall.step, if_neg hleft]
        split
        · exact ⟨hjob, fun run' h => by cases h⟩
        · exact ⟨hjob, fun run' h => ⟨run, rfl, by cases h; rfl⟩⟩
    | _ => exact .inl ⟨rfl, hidle⟩
  | polling run =>
    cases input with
    | polled answer =>
      cases answer with
      | error e =>
        exact .inr ⟨rfl, run, rfl, effect_persistFailure c s List.prefix_rfl _ e now job⟩
      | ok status =>
        cases hpoll : pollStatus run.requestId status with
        | waiting =>
          refine .inl ⟨by simp [writes, hpoll], ?_⟩
          simp only [FalCall.step, hpoll]
          exact ⟨hjob, fun run' h => ⟨run, rfl, by cases h; rfl⟩⟩
        | completed =>
          refine .inl ⟨by simp [writes, hpoll], ?_⟩
          simp only [FalCall.step, hpoll]
          exact ⟨hjob, fun run' h => ⟨run, rfl, by cases h; rfl⟩⟩
        | error message =>
          refine .inr ⟨by simp [writes, hpoll], run, rfl, ?_⟩
          simp only [FalCall.step, hpoll]
          exact effect_persistFailure c s List.prefix_rfl _ _ now job
        | running =>
          by_cases hemitted : run.runningEmitted = true
          · refine .inl ⟨by simp [writes, hpoll, hemitted], ?_⟩
            simp only [FalCall.step, hpoll, if_pos hemitted]
            exact ⟨hjob, fun run' h => ⟨run, rfl, by cases h; rfl⟩⟩
          · refine .inr ⟨by simp [writes, hpoll, hemitted], run, rfl, ?_⟩
            obtain ⟨s', hs', hafter⟩ := WorkloadStore.updateJobEvent_eq hjob .running
              (FalCall.running run.requestId now)
            simp only [FalCall.step, hpoll, if_neg hemitted, hs']
            exact ⟨_, hafter, .ran _ rfl ⟨_, rfl, rfl⟩⟩
    | _ => exact .inl ⟨rfl, hidle⟩
  | capturing run =>
    cases input with
    | captured result fetch =>
      refine .inr ⟨rfl, run, rfl, ?_⟩
      simp only [FalCall.step]
      split
      · exact effect_persistFailure c s List.prefix_rfl _ _ now job
      · refine ⟨_, WorkloadStore.job_insertJob s _ _, .ended (.inr rfl) ?_ rfl⟩
        simp only [FalCall.record, List.append_assoc]
        exact List.prefix_append _ _
    | _ => exact .inl ⟨rfl, hidle⟩
  | removing result =>
    refine .inl ⟨by cases input <;> rfl, ?_⟩
    cases input <;> exact ⟨hjob, fun run' h => by cases h⟩
  | removingCancelled =>
    refine .inl ⟨by cases input <;> rfl, ?_⟩
    cases input <;> exact ⟨hjob, fun run' h => by cases h⟩
  | finished result =>
    refine .inl ⟨by cases input <;> rfl, ?_⟩
    cases input <;> exact ⟨hjob, fun run' h => by cases h⟩

theorem step_submitted (c : FalCall) (s : WorkloadStore) (now : ℕ) {runner : Runner}
    (input : RunnerInput) (hsub : ∀ events, runner ≠ .submitting events) (events : List JobEvent) :
    (c.step s now runner input).2 ≠ .submitting events := by
  unfold FalCall.step
  split
  case h_1 => exact absurd rfl (hsub _)
  case h_2 => exact absurd rfl (hsub _)
  all_goals repeat' (first | exact hsub events | (intro h; cases h) | split)
  all_goals dsimp only
  all_goals split <;> nofun

/-- **The submission** puts the job into the store. -/
theorem step_submitting (c : FalCall) (s : WorkloadStore) (now : ℕ) (events : List JobEvent)
    (input : RunnerInput) :
    (∀ answer, input ≠ .submitted answer) ∧ c.step s now (.submitting events) input =
        (s, .submitting events) ∨
      (∀ events', (c.step s now (.submitting events) input).2 ≠ .submitting events') ∧
        ∃ job, (c.step s now (.submitting events) input).1.job c.jobId = some job ∧
          ∀ run, (c.step s now (.submitting events) input).2.run = some run →
            job.status = .queued ∧ job.events = run.events := by
  cases input with
  | submitted answer =>
    refine .inr ?_
    cases answer with
    | error e =>
      exact ⟨fun _ => nofun, _, WorkloadStore.job_insertJob s _ _, fun run hrun => by cases hrun⟩
    | ok requestId =>
      simp only [FalCall.step]
      split
      · exact ⟨fun _ => nofun, _, WorkloadStore.job_insertJob s _ _, fun run hrun => by cases hrun⟩
      · refine ⟨fun _ => nofun, _, WorkloadStore.job_insertFalRun s _ _, fun run hrun => ?_⟩
        cases hrun
        exact ⟨rfl, rfl⟩
  | _ => exact .inl ⟨fun _ => nofun, rfl⟩

/-! ### The invariant -/

/-- Before the submission no call has got past its first section; after it the job is stored, and
unless it is cancelled the runner's own copy of the events is what is stored. -/
structure Inv (c : FalCall) (w : World) : Prop where
  unsubmitted : ∀ events, w.runner = .submitting events →
    w.job c = none ∧ ∀ x ∈ w.cancels, ∃ r, x = .done r
  stored : (∀ events, w.runner ≠ .submitting events) → ∃ job, w.job c = some job
  own : ∀ run, w.runner.run = some run → ∀ job, w.job c = some job → job.status ≠ .cancelled →
    (job.status = .queued ∨ job.status = .running) ∧ job.events = run.events

theorem inv_start (h : s.job c.jobId = none) :
    Inv c (World.start c s) where
  unsubmitted _ _ := ⟨h, fun x hx => by cases hx⟩
  stored hne := absurd rfl (hne _)
  own run hrun := by cases hrun

/-- A change of the calls only. -/
theorem Inv.congr {w' : World} (h : Inv c w) (hjob : w'.job c = w.job c)
    (hrunner : w'.runner = w.runner)
    (hcancels : (∃ events, w.runner = .submitting events) → ∀ x ∈ w'.cancels, ∃ r, x = .done r) :
    Inv c w' where
  unsubmitted events he := by
    rw [hrunner] at he
    rw [hjob]
    exact ⟨(h.unsubmitted events he).1, hcancels ⟨events, he⟩⟩
  stored hne := by
    rw [hjob]
    exact h.stored (by rwa [hrunner] at hne)
  own run hrun := by
    rw [hjob]
    exact h.own run (by rwa [hrunner] at hrun)

/-- A section of the runner is safe exactly when it does not write over a cancelled job. -/
theorem Inv.run_iff (h : Inv c w) (input : RunnerInput) (now : ℕ) :
    Keeps c w (w.step c (.run input now)) ↔ Ok c w (.run input now) := by
  by_cases hsub : ∃ events, w.runner = .submitting events
  · -- nothing is stored yet
    obtain ⟨events, he⟩ := hsub
    have hnone := (h.unsubmitted events he).1
    constructor
    · intro _ _ job hjob
      rw [hnone] at hjob
      cases hjob
    · intro _ job hjob
      rw [hnone] at hjob
      cases hjob
  · have hne : ∀ events, w.runner ≠ .submitting events := fun events he => hsub ⟨events, he⟩
    obtain ⟨job, hjob⟩ := h.stored hne
    rcases step_effect c now input hjob hne with
      ⟨hidle, hafter, -⟩ | ⟨hwrites, run, hrun, after, hafter, heffect⟩
    · refine ⟨fun _ hw => ?_, fun _ => keeps_of_job_eq (hafter.trans hjob.symm)⟩
      rw [hidle] at hw
      cases hw
    · constructor
      · intro hkeeps _ job' hjob' hcancelled
        obtain rfl := Option.some.inj (hjob.symm.trans hjob')
        obtain ⟨after', hafter', hstatus, -⟩ := hkeeps job hjob
        obtain rfl := Option.some.inj (hafter.symm.trans hafter')
        have hsame := hstatus (.inr (.inr hcancelled))
        rw [hcancelled] at hsame
        cases heffect with
        | ended status _ _ => rcases status with hs | hs <;> rw [hs] at hsame <;> cases hsame
        | ran e hafter_eq _ =>
          rw [hafter_eq] at hsame
          cases hsame
      · intro hok job' hjob'
        obtain rfl := Option.some.inj (hjob.symm.trans hjob')
        obtain ⟨hlive, hevents⟩ := h.own run hrun job hjob (hok hwrites job hjob)
        refine ⟨after, hafter, fun hterminal => ?_, ?_⟩
        · rcases hlive with hs | hs <;> rw [hs] at hterminal <;> exact absurd hterminal (by decide)
        · cases heffect with
          | ended _ hprefix _ => rwa [hevents]
          | ran e hafter_eq _ =>
            rw [hafter_eq]
            exact List.prefix_append _ _

theorem Inv.run_keep (h : Inv c w) {input : RunnerInput} {now : ℕ}
    (hok : Ok c w (.run input now)) : Inv c (w.step c (.run input now)) := by
  by_cases hsub : ∃ events, w.runner = .submitting events
  · obtain ⟨events, he⟩ := hsub
    obtain ⟨hnone, hdone⟩ := h.unsubmitted events he
    rcases step_submitting c w.store now events input with ⟨-, hsame⟩ | ⟨hne, job, hjob, hown⟩
    · have hw : w.step c (.run input now) = w := by
        simp only [World.step, he, hsame]
        rw [← he]
      rwa [hw]
    · constructor
      · intro events' he'
        simp only [World.step, he] at he'
        exact absurd he' (hne events')
      · intro _
        refine ⟨job, ?_⟩
        simp only [World.step, he]
        exact hjob
      · intro run hrun job' hjob' _
        simp only [World.step, he, World.job] at hrun hjob'
        obtain rfl := Option.some.inj (hjob.symm.trans hjob')
        obtain ⟨hstatus, hevents⟩ := hown run hrun
        exact ⟨.inl hstatus, hevents⟩
  · have hne : ∀ events, w.runner ≠ .submitting events := fun events he => hsub ⟨events, he⟩
    obtain ⟨job, hjob⟩ := h.stored hne
    rcases step_effect c now input hjob hne with
      ⟨hidle, hafter, hcarry⟩ | ⟨hwrites, run, hrun, after, hafter, heffect⟩
    · refine ⟨fun events he => ?_, fun _ => ⟨job, hafter⟩, fun run' hrun' job' hjob' hlive => ?_⟩
      · exact absurd he (step_submitted c w.store now input hne events)
      · obtain rfl := Option.some.inj (hafter.symm.trans hjob')
        obtain ⟨run, hrun, hevents⟩ := hcarry run' hrun'
        rw [hevents]
        exact h.own run hrun job hjob hlive
    · refine ⟨fun events he => ?_, fun _ => ⟨after, hafter⟩, fun run' hrun' job' hjob' hlive => ?_⟩
      · exact absurd he (step_submitted c w.store now input hne events)
      · obtain rfl := Option.some.inj (hafter.symm.trans hjob')
        obtain ⟨-, hevents⟩ := h.own run hrun job hjob (hok hwrites job hjob)
        cases heffect with
        | ended _ _ hnone =>
          rw [show (c.step w.store now w.runner input).2.run = some run' from hrun'] at hnone
          cases hnone
        | ran e hafter_eq hnext =>
          obtain ⟨run'', hrun'', hevents''⟩ := hnext
          obtain rfl := Option.some.inj (hrun''.symm.trans hrun')
          rw [hafter_eq]
          exact ⟨.inr rfl, by simp [JobRecord.withEvent, hevents, hevents'']⟩

theorem not_preparing_of_done {i : ℕ} {control : FalRunControl}
    (hdone : ∀ x ∈ w.cancels, ∃ r, x = .done r) : w.cancels[i]? ≠ some (.preparing control) := by
  intro hi
  obtain ⟨r, hr⟩ := hdone _ (List.mem_of_getElem? hi)
  cases hr

theorem Inv.mark_iff (h : Inv c w) (i : ℕ) (answer : Except WorkloadError Unit) (now : ℕ) :
    Keeps c w (w.step c (.mark i answer now)) ↔ Ok c w (.mark i answer now) := by
  by_cases hmarks : ∃ control, w.cancels[i]? = some (.preparing control) ∧ answer = .ok ()
  · obtain ⟨control, hi, rfl⟩ := hmarks
    have hne : ∀ events, w.runner ≠ .submitting events := fun events he =>
      not_preparing_of_done (h.unsubmitted events he).2 hi
    obtain ⟨job, hjob⟩ := h.stored hne
    obtain ⟨s', hs', hafter⟩ := WorkloadStore.updateJobEvent_eq (s := w.store) hjob .cancelled
      (FalCall.cancelled control.requestId now)
    have hstep : (w.step c (.mark i (.ok ()) now)).job c =
        some (job.withEvent .cancelled (FalCall.cancelled control.requestId now)) := by
      simp only [World.step, hi, markCancelled, hs']
      exact hafter
    constructor
    · rintro hkeeps _ - - job' hjob'
      obtain rfl := Option.some.inj (hjob.symm.trans hjob')
      obtain ⟨after, hafter', hstatus, -⟩ := hkeeps job hjob
      obtain rfl := Option.some.inj (hstep.symm.trans hafter')
      refine ⟨fun hs => ?_, fun hs => ?_⟩
      · have hsame := hstatus (.inl hs)
        rw [hs] at hsame
        cases hsame
      · have hsame := hstatus (.inr (.inl hs))
        rw [hs] at hsame
        cases hsame
    · intro hok job' hjob'
      obtain rfl := Option.some.inj (hjob.symm.trans hjob')
      obtain ⟨hsucceeded, hfailed⟩ := hok control hi rfl job hjob
      refine ⟨_, hstep, fun hterminal => ?_, List.prefix_append _ _⟩
      rcases hterminal with hs | hs | hs
      · exact absurd hs hsucceeded
      · exact absurd hs hfailed
      · exact hs.symm
  · have hsame : (w.step c (.mark i answer now)).job c = w.job c := by
      simp only [World.step]
      split
      · rename_i control hi
        cases answer with
        | error e => rfl
        | ok _ => exact absurd ⟨control, hi, rfl⟩ hmarks
      · rfl
    refine ⟨fun _ control hi hanswer => absurd ⟨control, hi, hanswer⟩ hmarks, fun _ => ?_⟩
    exact keeps_of_job_eq hsame

theorem Inv.mark_keep (h : Inv c w) (i : ℕ)
    (answer : Except WorkloadError Unit) (now : ℕ) : Inv c (w.step c (.mark i answer now)) := by
  simp only [World.step]
  split
  · rename_i control hi
    have hne : ∀ events, w.runner ≠ .submitting events := fun events he =>
      not_preparing_of_done (h.unsubmitted events he).2 hi
    obtain ⟨job, hjob⟩ := h.stored hne
    cases answer with
    | error e => exact h.congr rfl rfl fun ⟨events, he⟩ => absurd he (hne events)
    | ok _ =>
      obtain ⟨s', hs', hafter⟩ := WorkloadStore.updateJobEvent_eq (s := w.store) hjob .cancelled
        (FalCall.cancelled control.requestId now)
      simp only [markCancelled, hs']
      refine ⟨fun events he => absurd he (hne events), fun _ => ⟨_, hafter⟩,
        fun run hrun job' hjob' hlive => ?_⟩
      obtain rfl := Option.some.inj (hafter.symm.trans hjob')
      exact absurd rfl hlive
  · exact h

theorem startCancel_done {id : String} (h : s.job id = none) : ∃ r, startCancel s id = .done r := by
  unfold startCancel
  rw [show s.jobs.get id = none from h]
  exact ⟨_, rfl⟩

theorem Inv.call_keep (h : Inv c w) : Inv c (w.step c .call) := by
  refine h.congr rfl rfl ?_
  rintro ⟨events, he⟩ x hx
  obtain ⟨hnone, hdone⟩ := h.unsubmitted events he
  rcases List.mem_append.mp hx with hx | hx
  · exact hdone x hx
  · obtain rfl := List.mem_singleton.mp hx
    exact startCancel_done hnone

theorem Inv.answer_keep (h : Inv c w) (i : ℕ)
    (answer : Except WorkloadError Unit) : Inv c (w.step c (.answer i answer)) := by
  simp only [World.step]
  split
  · rename_i hi
    refine h.congr rfl rfl ?_
    rintro ⟨events, he⟩ x hx
    obtain ⟨r, hr⟩ := (h.unsubmitted events he).2 _ (List.mem_of_getElem? hi)
    cases hr
  · exact h

theorem answer_job (c : FalCall) (w : World) (i : ℕ) (answer : Except WorkloadError Unit) :
    (w.step c (.answer i answer)).job c = w.job c := by
  simp only [World.step]
  split <;> rfl

theorem Inv.safe_iff (h : Inv c w) (i : Input) : Keeps c w (w.step c i) ↔ Ok c w i := by
  cases i with
  | run input now => exact h.run_iff input now
  | call => exact ⟨fun _ => trivial, fun _ => keeps_of_job_eq rfl⟩
  | mark i answer now => exact h.mark_iff i answer now
  | answer i answer => exact ⟨fun _ => trivial, fun _ => keeps_of_job_eq (answer_job c w i answer)⟩

theorem Inv.keep (h : Inv c w) {i : Input} (hok : Ok c w i) : Inv c (w.step c i) := by
  cases i with
  | run input now => exact h.run_keep hok
  | call => exact h.call_keep
  | mark i answer now => exact h.mark_keep i answer now
  | answer i answer => exact h.answer_keep i answer

/-- **A job's terminal status is final** along a run exactly when the runner never writes over a
cancelled job and no call marks a finished one. -/
theorem terminal_final_iff (c : FalCall) {s : WorkloadStore} (hfresh : s.job c.jobId = none)
    (inputs : List Input) :
    (∀ a b d, inputs = a ++ b ++ d →
        Keeps c (a.foldl (World.step c) (World.start c s))
          ((a ++ b).foldl (World.step c) (World.start c s))) ↔
      ∀ v ∈ Machine.visited (World.step c) (World.start c s) inputs, Ok c v.1 v.2 := by
  rw [Machine.foldl_rel_iff (Keeps.refl c) fun _ _ _ => Keeps.trans]
  exact Machine.safe_steps_iff (fun _ i h => h.safe_iff i) (fun _ _ h hok => h.keep hok)
    (inv_start hfresh) inputs

def foxCall : FalCall where
  jobId := "job_1"
  target := "fal/flux"
  providerId := "fal"
  model := "flux"
  accountId := "default"
  tenant := none
  project := none
  startedAtMs := 0

/-- The job is cancelled before the runner looks. -/
def cancelledRun : List Input :=
  [.run (.submitted (.ok "r1")) 1, .call, .mark 0 (.ok ()) 2, .run (.guarded (.ok ())) 3,
    .run .checked 4, .run .removed 5]

theorem terminal_final_cancelled :
    Keeps foxCall ((cancelledRun.take 4).foldl (World.step foxCall) (World.start foxCall {}))
      (cancelledRun.foldl (World.step foxCall) (World.start foxCall {})) := by
  refine (terminal_final_iff foxCall (s := {}) rfl cancelledRun).mpr (fun v hv => ?_)
    (cancelledRun.take 4) (cancelledRun.drop 4) [] rfl
  simp only [cancelledRun, Machine.visited, List.mem_cons, List.not_mem_nil, or_false] at hv
  rcases hv with rfl | rfl | rfl | rfl | rfl | rfl
  · exact fun hw => absurd hw (by decide +kernel)
  · trivial
  · intro _ _ _ job hjob
    have hstatus : ((((World.start foxCall {}).step foxCall (.run (.submitted (.ok "r1")) 1)).step
        foxCall .call).job foxCall).map JobRecord.status = some .queued := by
      decide +kernel
    rw [hjob, Option.map_some, Option.some.injEq] at hstatus
    simp [hstatus]
  · exact fun hw => absurd hw (by decide +kernel)
  · exact fun hw => absurd hw (by decide +kernel)
  · exact fun hw => absurd hw (by decide +kernel)

/-- The first sections of a run in which the job is cancelled while the runner waits for its
status. -/
def cancelledMeanwhile : List Input :=
  [.run (.submitted (.ok "r1")) 1, .run (.guarded (.ok ())) 2, .run .checked 3, .call,
    .mark 0 (.ok ()) 4]

def polledRunning : Input := .run (.polled (.ok "IN_PROGRESS")) 5

/-- A cancelled job is running again. -/
theorem cancelled_job_reappears :
    ¬ ∀ a b d, cancelledMeanwhile ++ [polledRunning] = a ++ b ++ d →
      Keeps foxCall (a.foldl (World.step foxCall) (World.start foxCall {}))
        ((a ++ b).foldl (World.step foxCall) (World.start foxCall {})) := by
  intro h
  have hkeeps := h cancelledMeanwhile [polledRunning] [] (by simp)
  have hbefore : ((cancelledMeanwhile.foldl (World.step foxCall)
      (World.start foxCall {})).job foxCall).map JobRecord.status = some .cancelled := by
    decide +kernel
  have hafter : (((cancelledMeanwhile ++ [polledRunning]).foldl
      (World.step foxCall) (World.start foxCall {})).job foxCall).map JobRecord.status =
        some .running := by
    decide +kernel
  obtain ⟨job, hjob, hs⟩ := Option.map_eq_some_iff.mp hbefore
  obtain ⟨job', hjob', hstatus, -⟩ := hkeeps job hjob
  rw [hjob', Option.map_some, hstatus (.inr (.inr hs)), hs] at hafter
  cases hafter

end Workloads

end Switchback
