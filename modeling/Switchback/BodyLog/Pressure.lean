import Switchback.BodyLog.Index
import Switchback.Lib.Machine
import Switchback.Lib.Word

/-!
# Capture pressure

The controller that decides whether whole bodies are captured or only their metadata.  Its state
is a file that every process shares: each call reads the file, moves the state and writes it back
when something worth keeping has changed.
-/

namespace Switchback

namespace BodyLog

namespace Pressure

open Lib

inductive CaptureMode
  | segmentedFullWire
  | healingProbe
  | metadataOnly
  deriving DecidableEq

structure PressureObservation where
  free_bytes : ℕ
  capacity_bytes : ℕ
  last_backup_success_at_unix_ms : Option ℤ
  backup_generation : ℕ
  unbacked_bytes : ℕ

/-- `PersistedPressureState`.  The queue depths are zeroed on every read. -/
structure PersistedPressureState where
  mode : CaptureMode
  reasons : List String
  resume_blockers : List String
  healthy_backup_cycles : ℕ
  last_backup_generation : ℕ
  writer_failures : ℕ
  queue_drops : ℕ
  unbacked_bytes : ℕ
  updated_at_unix_ms : ℤ

def PersistedPressureState.default : PersistedPressureState :=
  { mode := .segmentedFullWire
    reasons := []
    resume_blockers := []
    healthy_backup_cycles := 0
    last_backup_generation := 0
    writer_failures := 0
    queue_drops := 0
    unbacked_bytes := 0
    updated_at_unix_ms := 0 }

/-- The state file. -/
inductive StateFile
  | missing
  | invalid
  | unreadable
  | state (st : PersistedPressureState)

/-- `read_persisted_state`: a damaged file degrades capture. -/
def readPersistedState : StateFile → PersistedPressureState
  | .state st => st
  | .missing => .default
  | .invalid => { PersistedPressureState.default with
      mode := .metadataOnly, reasons := ["pressure_state_invalid"] }
  | .unreadable => { PersistedPressureState.default with
      mode := .metadataOnly, reasons := ["pressure_state_unreadable"] }

/-- The part of `PressureStatus` that comes from the state and the observation. -/
structure PressureStatus where
  mode : CaptureMode
  reasons : List String
  warnings : List String
  resume_blockers : List String
  healthy_backup_cycles : ℕ
  last_backup_generation : ℕ
  writer_failures : ℕ
  queue_drops : ℕ
  unbacked_bytes : ℕ
  free_bytes : Option ℕ
  capacity_bytes : Option ℕ
  last_backup_success_at_unix_ms : Option ℤ
  backup_age_ms : Option ℤ
  updated_at_unix_ms : ℤ

/-! ### Thresholds -/

def backupWarnAgeMs : ℤ := 6 * 60 * 60 * 1000

def backupDegradeAgeMs : ℤ := 24 * 60 * 60 * 1000

def freeWarnBytes : ℕ := 100000000000

def freeDegradeBytes : ℕ := 50000000000

def freeWarnBps : ℕ := 1500

def freeDegradeBps : ℕ := 800

def unbackedDegradeBytes : ℕ := 50000000000

def unbackedResumeBytes : ℕ := 10000000000

def healthyBackupCyclesToResume : ℕ := 2

def unbackedSnapshotBytes : ℕ := 64 * 1024 * 1024

def unbackedSnapshotIntervalMs : ℤ := 60 * 1000

def ratioBps (free_bytes capacity_bytes : ℕ) : ℕ :=
  if capacity_bytes = 0 then 0 else min (free_bytes * 10000) Word.u64Max / capacity_bytes

/-- `resume_free_threshold_bytes`: the smaller of the absolute floor and the share of the
capacity. -/
def resumeFreeThresholdBytes (capacity_bytes : ℕ) : ℕ :=
  min freeWarnBytes (min (freeWarnBps * capacity_bytes) Word.u64Max / 10000)

/-! ### One evaluation -/

/-- The age of the last backup. -/
def backupAgeMs (obs : PressureObservation) (now : ℤ) : Option ℤ :=
  obs.last_backup_success_at_unix_ms.map fun completed => max (Word.satSubI64 now completed) 0

/-- The age of the last backup is known and above a bound. -/
def olderThan (obs : PressureObservation) (now bound : ℤ) : Bool :=
  (backupAgeMs obs now).any fun age => bound < age

/-- The last backup is no older than the warning age. -/
def receiptFresh (obs : PressureObservation) (now : ℤ) : Bool :=
  (backupAgeMs obs now).any fun age => age ≤ backupWarnAgeMs

/-- The reasons to degrade.  A stale backup counts only while something is left to back up, or
when a backup that existed is gone. -/
def severe (st : PersistedPressureState) (obs : PressureObservation) (now : ℤ) : List String :=
  (if (olderThan obs now backupDegradeAgeMs ∧ obs.unbacked_bytes ≠ 0) ∨
      (backupAgeMs obs now = none ∧ 0 < st.last_backup_generation) then ["backup_stale"]
    else []) ++
  (if obs.free_bytes < freeDegradeBytes ∨
      ratioBps obs.free_bytes obs.capacity_bytes < freeDegradeBps then ["free_bytes"] else []) ++
  (if obs.unbacked_bytes > unbackedDegradeBytes then ["unbacked_bytes"] else [])

/-- The warnings of a status. -/
def warnings (obs : PressureObservation) (now : ℤ) : List String :=
  (if olderThan obs now backupWarnAgeMs then ["backup_stale"]
    else if backupAgeMs obs now = none then ["backup_missing"] else []) ++
  (if obs.free_bytes < freeWarnBytes ∨
      ratioBps obs.free_bytes obs.capacity_bytes < freeWarnBps then ["free_bytes"] else [])

/-- The gates that hold a degraded capture. -/
def resumeBlockers (obs : PressureObservation) (now : ℤ) : List String :=
  (if receiptFresh obs now ∨ obs.unbacked_bytes = 0 then [] else ["backup_stale_for_resume"]) ++
  (if obs.free_bytes < resumeFreeThresholdBytes obs.capacity_bytes then
    ["free_bytes_below_resume"] else []) ++
  (if obs.unbacked_bytes ≥ unbackedResumeBytes then ["unbacked_bytes_above_resume"] else [])

/-- The count of healthy cycles after an evaluation of a degraded capture. -/
def healedCycles (st : PersistedPressureState) (obs : PressureObservation) (now : ℤ) : ℕ :=
  if resumeBlockers obs now = [] ∧
      (receiptFresh obs now ∨ obs.backup_generation > st.last_backup_generation ∨
        obs.unbacked_bytes = 0) then
    min (st.healthy_backup_cycles + 1) (2 ^ 32 - 1)
  else if resumeBlockers obs now ≠ [] then 0
  else st.healthy_backup_cycles

/-- The healing branch of `evaluate`. -/
def heal (st : PersistedPressureState) (obs : PressureObservation) (now : ℤ) :
    PersistedPressureState :=
  let cycles := healedCycles st obs now
  if cycles ≥ healthyBackupCyclesToResume then
    { st with
      mode := .segmentedFullWire, reasons := [], resume_blockers := [], healthy_backup_cycles := 0 }
  else if resumeBlockers obs now = [] ∧ cycles = 1 then
    { st with
      mode := .healingProbe, reasons := ["healing_backup_probe"]
      resume_blockers := resumeBlockers obs now, healthy_backup_cycles := cycles }
  else
    { st with
      mode := .metadataOnly, reasons := ["healing_backup_cycles"]
      resume_blockers := resumeBlockers obs now, healthy_backup_cycles := cycles }

/-- Nothing was ever backed up here. -/
def neverBackedUp (obs : PressureObservation) : Bool :=
  obs.last_backup_success_at_unix_ms = none ∧ obs.backup_generation = 0

/-- The mode, its reasons and the cycle count after an evaluation. -/
def judge (st : PersistedPressureState) (obs : PressureObservation) (now : ℤ) :
    PersistedPressureState :=
  if severe st obs now ≠ [] then
    { st with
      mode := .metadataOnly, reasons := severe st obs now, resume_blockers := []
      healthy_backup_cycles := 0 }
  else if neverBackedUp obs then
    { st with
      mode := .segmentedFullWire, reasons := [], resume_blockers := [], healthy_backup_cycles := 0 }
  else if st.mode = .metadataOnly ∨ st.mode = .healingProbe then heal st obs now
  else { st with reasons := [], resume_blockers := [], healthy_backup_cycles := 0 }

/-- The state after an evaluation. -/
def nextState (st : PersistedPressureState) (obs : PressureObservation) (now : ℤ) :
    PersistedPressureState :=
  { judge st obs now with
    last_backup_generation := max st.last_backup_generation obs.backup_generation
    unbacked_bytes := obs.unbacked_bytes
    updated_at_unix_ms := now }

def persistedChanged (before after : PersistedPressureState) : Bool :=
  before.mode ≠ after.mode ∨ before.reasons ≠ after.reasons ∨
    before.resume_blockers ≠ after.resume_blockers ∨
    before.healthy_backup_cycles ≠ after.healthy_backup_cycles ∨
    before.last_backup_generation ≠ after.last_backup_generation ∨
    before.writer_failures ≠ after.writer_failures ∨ before.queue_drops ≠ after.queue_drops

/-- The unbacked bytes have moved far enough, or long enough ago, to be written again. -/
def snapshotDue (before after : PersistedPressureState) (now : ℤ) : Bool :=
  let drift := max after.unbacked_bytes before.unbacked_bytes -
    min after.unbacked_bytes before.unbacked_bytes
  0 < drift ∧ (drift ≥ unbackedSnapshotBytes ∨
    Word.satSubI64 now before.updated_at_unix_ms ≥ unbackedSnapshotIntervalMs)

/-- The status that an evaluation publishes. -/
def evaluatedStatus (st : PersistedPressureState) (obs : PressureObservation) (now : ℤ) :
    PressureStatus :=
  { mode := st.mode
    reasons := st.reasons
    warnings := warnings obs now
    resume_blockers := st.resume_blockers
    healthy_backup_cycles := st.healthy_backup_cycles
    last_backup_generation := st.last_backup_generation
    writer_failures := st.writer_failures
    queue_drops := st.queue_drops
    unbacked_bytes := obs.unbacked_bytes
    free_bytes := some obs.free_bytes
    capacity_bytes := some obs.capacity_bytes
    last_backup_success_at_unix_ms := obs.last_backup_success_at_unix_ms
    backup_age_ms := backupAgeMs obs now
    updated_at_unix_ms := now }

def statusFromState (st : PersistedPressureState) : PressureStatus :=
  { mode := st.mode
    reasons := st.reasons
    warnings := []
    resume_blockers := st.resume_blockers
    healthy_backup_cycles := st.healthy_backup_cycles
    last_backup_generation := st.last_backup_generation
    writer_failures := st.writer_failures
    queue_drops := st.queue_drops
    unbacked_bytes := st.unbacked_bytes
    free_bytes := none
    capacity_bytes := none
    last_backup_success_at_unix_ms := none
    backup_age_ms := none
    updated_at_unix_ms := st.updated_at_unix_ms }

/-- What can go wrong around a call: the lock of the state file, or writing it. -/
inductive Fault
  | lock
  | write
  deriving DecidableEq

/-- `PressureController::evaluate`: the state file afterwards, and the status unless the call
failed. -/
def evaluate (file : StateFile) (fault : Option Fault) (obs : PressureObservation) (now : ℤ) :
    StateFile × Option PressureStatus :=
  if fault = some .lock then (file, none)
  else
    let previous := readPersistedState file
    let st := nextState previous obs now
    if persistedChanged previous st ∨ snapshotDue previous st now then
      if fault = some .write then (file, none)
      else (.state st, some (evaluatedStatus st obs now))
    else (file, some (evaluatedStatus st obs now))

/-- The state that a writer failure leaves. -/
def failedState (st : PersistedPressureState) (reason : String) (now : ℤ) :
    PersistedPressureState :=
  { st with
    mode := .metadataOnly
    reasons := [s!"writer_failed:{reason}"]
    resume_blockers := []
    healthy_backup_cycles := 0
    writer_failures := Word.satAdd st.writer_failures 1
    updated_at_unix_ms := now }

def markWriterFailure (file : StateFile) (fault : Option Fault) (reason : String) (now : ℤ) :
    StateFile × Option PressureStatus :=
  if fault ≠ none then (file, none)
  else
    let st := failedState (readPersistedState file) reason now
    (.state st, some (statusFromState st))

/-- A call on the controller. -/
inductive Call
  | evaluate (fault : Option Fault) (obs : PressureObservation) (now : ℤ)
  | markWriterFailure (fault : Option Fault) (reason : String) (now : ℤ)

def Call.run (file : StateFile) : Call → StateFile × Option PressureStatus
  | .evaluate fault obs now => Pressure.evaluate file fault obs now
  | .markWriterFailure fault reason now => Pressure.markWriterFailure file fault reason now

/-- The state file after calls. -/
def after (file : StateFile) (calls : List Call) : StateFile :=
  calls.foldl (fun f c => (c.run f).1) file

theorem after_append (file : StateFile) (a b : List Call) :
    after file (a ++ b) = after (after file a) b :=
  List.foldl_append

@[simp] theorem after_concat (file : StateFile) (calls : List Call) (c : Call) :
    after file (calls ++ [c]) = (c.run (after file calls)).1 := by
  simp [after]

/-! ### What a call can do -/

/-- The state that a call which does not fail computes. -/
def Call.result (st : PersistedPressureState) : Call → PersistedPressureState
  | .evaluate _ obs now => nextState st obs now
  | .markWriterFailure _ reason now => failedState st reason now

/-- **What a call can do.**  It fails and leaves the file as it is, or it publishes the state it
computes, and the file then agrees with that state on the mode and the cycle count. -/
theorem run_cases (file : StateFile) (c : Call) :
    ((c.run file).2 = none ∧ (c.run file).1 = file) ∨
      ∃ status, (c.run file).2 = some status ∧
        status.mode = (c.result (readPersistedState file)).mode ∧
        status.healthy_backup_cycles =
          (c.result (readPersistedState file)).healthy_backup_cycles ∧
        (readPersistedState (c.run file).1).mode = (c.result (readPersistedState file)).mode ∧
        (readPersistedState (c.run file).1).healthy_backup_cycles =
          (c.result (readPersistedState file)).healthy_backup_cycles := by
  cases c with
  | evaluate fault obs now =>
    simp only [Call.run, Call.result, evaluate]
    split_ifs with hlock hdue hwrite
    · exact Or.inl ⟨rfl, rfl⟩
    · exact Or.inl ⟨rfl, rfl⟩
    · exact Or.inr ⟨_, rfl, rfl, rfl, rfl, rfl⟩
    · -- the file is not written because it says the same already
      rw [not_or, Bool.not_eq_true, persistedChanged, decide_eq_false_iff_not] at hdue
      exact Or.inr ⟨_, rfl, rfl, rfl, by tauto, by tauto⟩
  | markWriterFailure fault reason now =>
    simp only [Call.run, Call.result, markWriterFailure]
    split_ifs with hfault
    · exact Or.inl ⟨rfl, rfl⟩
    · exact Or.inr ⟨_, rfl, rfl, rfl, rfl, rfl⟩

/-- No gate holds a degraded capture. -/
def Healthy (obs : PressureObservation) (now : ℤ) : Prop := resumeBlockers obs now = []

instance (obs : PressureObservation) (now : ℤ) : Decidable (Healthy obs now) :=
  inferInstanceAs (Decidable (_ = _))

variable (st : PersistedPressureState) {file : StateFile}

variable (obs : PressureObservation)

/-- A healthy evaluation always counts: the gate on the age of the backup asks for nothing that
does not trigger the count as well. -/
theorem healedCycles_eq (now : ℤ) :
    healedCycles st obs now =
      if Healthy obs now then min (st.healthy_backup_cycles + 1) (2 ^ 32 - 1) else 0 := by
  have htrigger : resumeBlockers obs now = [] →
      receiptFresh obs now = true ∨ obs.unbacked_bytes = 0 := by
    intro h
    by_contra hnone
    simp [resumeBlockers, hnone] at h
  rw [healedCycles]
  by_cases h : Healthy obs now
  · have := htrigger h
    rw [if_pos h, if_pos ⟨h, by tauto⟩]
  · have hblocked : resumeBlockers obs now ≠ [] := h
    rw [if_neg fun hboth => hblocked hboth.1, if_pos hblocked, if_neg h]

/-- The cycle count says which mode the controller is in. -/
def Consistent (st : PersistedPressureState) : Prop :=
  match st.mode with
  | .segmentedFullWire => st.healthy_backup_cycles = 0
  | .healingProbe => st.healthy_backup_cycles = 1
  | .metadataOnly => st.healthy_backup_cycles = 0

theorem nextState_mode (now : ℤ) :
    (nextState st obs now).mode =
      if severe st obs now ≠ [] then .metadataOnly
      else if neverBackedUp obs then .segmentedFullWire
      else if st.mode = .segmentedFullWire then .segmentedFullWire
      else if Healthy obs now then
        if st.healthy_backup_cycles = 0 then .healingProbe else .segmentedFullWire
      else .metadataOnly := by
  rw [nextState, judge]
  by_cases hsevere : severe st obs now ≠ []
  · simp [hsevere]
  · by_cases hnever : neverBackedUp obs = true
    · simp [hsevere, hnever]
    · cases hmode : st.mode with
      | segmentedFullWire => simp [hsevere, hnever]
      | healingProbe | metadataOnly =>
        simp only [hsevere, hnever, if_false, reduceCtorEq, or_true, true_or, if_true, heal,
          healedCycles_eq]
        by_cases hhealthy : Healthy obs now
        · by_cases hzero : st.healthy_backup_cycles = 0
          · simp [hhealthy, hzero, healthyBackupCyclesToResume, show resumeBlockers obs now = [] from
              hhealthy]
          · have htwo : min (st.healthy_backup_cycles + 1) (2 ^ 32 - 1) ≥
                healthyBackupCyclesToResume := by
              rw [healthyBackupCyclesToResume]
              omega
            simp only [hhealthy, if_true, htwo, hzero, if_false]
        · simp [hhealthy, healthyBackupCyclesToResume]

theorem heal_consistent (now : ℤ) : Consistent (heal st obs now) := by
  have hcycles := healedCycles_eq st obs now
  unfold heal healthyBackupCyclesToResume
  dsimp only
  split_ifs with hdone hprobe
  · exact rfl
  · exact hprobe.2
  · -- one healthy evaluation would have been a probe, so this one was not healthy
    show healedCycles st obs now = 0
    by_cases hhealthy : Healthy obs now
    · rw [if_pos hhealthy] at hcycles
      have hone : healedCycles st obs now = 1 := by omega
      exact absurd ⟨hhealthy, hone⟩ hprobe
    · rwa [if_neg hhealthy] at hcycles

theorem nextState_consistent (now : ℤ) : Consistent (nextState st obs now) := by
  rw [nextState, judge]
  split_ifs with hsevere hnever hmode
  · exact rfl
  · exact rfl
  · exact heal_consistent st obs now
  · have : st.mode = .segmentedFullWire := by
      cases hm : st.mode with
      | segmentedFullWire => rfl
      | healingProbe => exact absurd (Or.inr hm) hmode
      | metadataOnly => exact absurd (Or.inl hm) hmode
    simp [Consistent, this]

/-! ### Runs -/

/-- A file that no controller has written. -/
def Fresh (file : StateFile) : Prop := ∀ st, file ≠ .state st

theorem result_consistent (c : Call) : Consistent (c.result st) := by
  cases c with
  | evaluate fault obs now => exact nextState_consistent st obs now
  | markWriterFailure fault reason now => exact rfl

theorem Consistent.congr {st st' : PersistedPressureState} (h : Consistent st)
    (hmode : st'.mode = st.mode)
    (hcycles : st'.healthy_backup_cycles = st.healthy_backup_cycles) : Consistent st' := by
  unfold Consistent at h ⊢
  rw [hmode, hcycles]
  exact h

theorem run_consistent (h : Consistent (readPersistedState file)) (c : Call) :
    Consistent (readPersistedState (c.run file).1) := by
  rcases run_cases file c with ⟨-, hfile⟩ | ⟨status, -, -, -, hmode, hcycles⟩
  · rwa [hfile]
  · exact (result_consistent _ c).congr hmode hcycles

/-- The state file is consistent throughout a run. -/
theorem after_consistent (hfresh : Fresh file) (calls : List Call) :
    Consistent (readPersistedState (after file calls)) := by
  induction calls using List.reverseRecOn with
  | nil =>
    cases file with
    | state st => exact absurd rfl (hfresh st)
    | missing | invalid | unreadable => exact rfl
  | append_singleton calls c ih =>
    rw [after_concat]
    exact run_consistent ih c

/-- A healthy evaluation that went through. -/
def HealthyCall (file : StateFile) (c : Call) : Prop :=
  ∃ fault obs now, c = .evaluate fault obs now ∧ Healthy obs now ∧ (c.run file).2.isSome

theorem after_failed {calls : List Call}
    (h : ∀ c ∈ calls, (c.run file).2 = none) : after file calls = file := by
  induction calls with
  | nil => rfl
  | cons c calls ih =>
    rw [List.forall_mem_cons] at h
    have hsame : (c.run file).1 = file := by
      rcases run_cases file c with ⟨-, hfile⟩ | ⟨status, hsome, -⟩
      · exact hfile
      · rw [h.1] at hsome
        cases hsome
    rw [after, List.foldl_cons, hsame]
    exact ih h.2

theorem nextState_probe {st : PersistedPressureState} {obs : PressureObservation} {now : ℤ}
    (h : (nextState st obs now).mode = .healingProbe) :
    Healthy obs now ∧ st.mode ≠ .segmentedFullWire ∧ st.healthy_backup_cycles = 0 := by
  rw [nextState_mode] at h
  split_ifs at h with hsevere hnever hmode hhealthy hzero
  exact ⟨hhealthy, hmode, hzero⟩

theorem nextState_fullWire {st : PersistedPressureState} {obs : PressureObservation} {now : ℤ}
    (h : (nextState st obs now).mode = .segmentedFullWire) :
    neverBackedUp obs = true ∨ st.mode = .segmentedFullWire ∨
      (Healthy obs now ∧ st.healthy_backup_cycles ≠ 0) := by
  rw [nextState_mode] at h
  split_ifs at h with hsevere hnever hmode hhealthy hzero
  · exact Or.inl hnever
  · exact Or.inr (Or.inl hmode)
  · exact Or.inr (Or.inr ⟨hhealthy, hzero⟩)

/-- A probe began with a healthy evaluation of a degraded capture, and no call went through
since. -/
theorem probe_history (hfresh : Fresh file) (calls : List Call)
    (h : (readPersistedState (after file calls)).mode = .healingProbe) :
    ∃ a e b, calls = a ++ e :: b ∧
      (readPersistedState (after file a)).mode = .metadataOnly ∧
      HealthyCall (after file a) e ∧
      ∀ c ∈ b, (c.run (after file (a ++ [e]))).2 = none := by
  induction calls using List.reverseRecOn with
  | nil =>
    cases file with
    | state st => exact absurd rfl (hfresh st)
    | missing | invalid | unreadable => cases h
  | append_singleton calls c ih =>
    rw [after_concat] at h
    rcases run_cases (after file calls) c with ⟨hnone, hfile⟩ | ⟨status, hsome, -, -, hmode, -⟩
    · -- a call that failed joins the ones after the healthy evaluation
      rw [hfile] at h
      obtain ⟨a, e, b, rfl, hdegraded, hhealthy, hfailed⟩ := ih h
      refine ⟨a, e, b ++ [c], by simp, hdegraded, hhealthy, ?_⟩
      have hstay : after file (a ++ e :: b) = after file (a ++ [e]) := by
        rw [show a ++ e :: b = (a ++ [e]) ++ b by simp, after_append]
        exact after_failed hfailed
      rw [hstay] at hnone
      intro c' hc'
      rcases List.mem_append.1 hc' with hc' | hc'
      · exact hfailed c' hc'
      · rwa [List.mem_singleton.1 hc']
    · rw [hmode] at h
      cases c with
      | markWriterFailure fault reason now => cases h
      | evaluate fault obs now =>
        obtain ⟨hhealthy, hnotFull, hzero⟩ := nextState_probe h
        have hdegraded : (readPersistedState (after file calls)).mode = .metadataOnly := by
          have hcons := after_consistent hfresh calls
          unfold Consistent at hcons
          split at hcons
          · exact absurd ‹_› hnotFull
          · omega
          · assumption
        exact ⟨calls, .evaluate fault obs now, [], rfl, hdegraded,
          ⟨fault, obs, now, rfl, hhealthy, by rw [hsome]; rfl⟩, by simp⟩

/-- What holds of a call `c` in a run, after the calls `before`. -/
structure Hysteresis (file : StateFile) (before : List Call) (c : Call) : Prop where
  /-- A severe observation or a writer failure gives metadata only. -/
  degrades : ∀ status, (c.run (after file before)).2 = some status →
    (∀ fault obs now, c = .evaluate fault obs now →
      severe (readPersistedState (after file before)) obs now ≠ [] →
        status.mode = .metadataOnly) ∧
    (∀ fault reason now, c = .markWriterFailure fault reason now → status.mode = .metadataOnly)
  /-- A degraded capture is never whole at once, except where nothing was ever backed up. -/
  never_direct : (readPersistedState (after file before)).mode = .metadataOnly →
    (readPersistedState (after file (before ++ [c]))).mode = .segmentedFullWire →
      ∃ fault obs now, c = .evaluate fault obs now ∧ neverBackedUp obs = true
  /-- Elsewhere capture is whole again only after two healthy evaluations in a row. -/
  earned : (readPersistedState (after file before)).mode ≠ .segmentedFullWire →
    (readPersistedState (after file (before ++ [c]))).mode = .segmentedFullWire →
      (∃ fault obs now, c = .evaluate fault obs now ∧ neverBackedUp obs = true) ∨
      (HealthyCall (after file before) c ∧ ∃ a e b, before = a ++ e :: b ∧
        (readPersistedState (after file a)).mode = .metadataOnly ∧
        HealthyCall (after file a) e ∧ ∀ c' ∈ b, (c'.run (after file (a ++ [e]))).2 = none)
  /-- The count of healthy cycles, in the file and in the status. -/
  cycles : ((readPersistedState (after file (before ++ [c]))).mode = .segmentedFullWire →
      (readPersistedState (after file (before ++ [c]))).healthy_backup_cycles = 0) ∧
    (readPersistedState (after file (before ++ [c]))).healthy_backup_cycles ≤ 1 ∧
    ∀ status, (c.run (after file before)).2 = some status →
      (status.mode = .segmentedFullWire → status.healthy_backup_cycles = 0) ∧
        status.healthy_backup_cycles ≤ 1

theorem Consistent.cycles {st : PersistedPressureState} (h : Consistent st) :
    (st.mode = .segmentedFullWire → st.healthy_backup_cycles = 0) ∧
      st.healthy_backup_cycles ≤ 1 := by
  cases hmode : st.mode with
  | segmentedFullWire =>
    simp only [Consistent, hmode] at h
    exact ⟨fun _ => h, by omega⟩
  | healingProbe =>
    simp only [Consistent, hmode] at h
    exact ⟨fun hfull => absurd hfull (by decide), by omega⟩
  | metadataOnly =>
    simp only [Consistent, hmode] at h
    exact ⟨fun hfull => absurd hfull (by decide), by omega⟩

theorem resumes_cases (hcons : Consistent (readPersistedState file)) {c : Call}
    (hbefore : (readPersistedState file).mode ≠ .segmentedFullWire)
    (hafter : (readPersistedState (c.run file).1).mode = .segmentedFullWire) :
    (∃ fault obs now, c = .evaluate fault obs now ∧ neverBackedUp obs = true) ∨
      (HealthyCall file c ∧ (readPersistedState file).mode = .healingProbe) := by
  rcases run_cases file c with ⟨-, hfile⟩ | ⟨status, hsome, -, -, hmode, -⟩
  · rw [hfile] at hafter
    exact absurd hafter hbefore
  · rw [hmode] at hafter
    cases c with
    | markWriterFailure fault reason now => cases hafter
    | evaluate fault obs now =>
      rcases nextState_fullWire hafter with hnever | hfull | ⟨hhealthy, hpos⟩
      · exact Or.inl ⟨fault, obs, now, rfl, hnever⟩
      · exact absurd hfull hbefore
      · refine Or.inr ⟨⟨fault, obs, now, rfl, hhealthy, by rw [hsome]; rfl⟩, ?_⟩
        unfold Consistent at hcons
        split at hcons
        · exact absurd hcons hpos
        · assumption
        · exact absurd hcons hpos

/-- **The hysteresis of capture.**  In every run from a file that no controller has written. -/
theorem pressure_hysteresis (file : StateFile) (hfresh : Fresh file) (before : List Call)
    (c : Call) : Hysteresis file before c := by
  have hcons := after_consistent hfresh before
  refine ⟨fun status hstatus => ⟨?_, ?_⟩, fun hdegraded hfull => ?_, fun hnot hfull => ?_, ?_, ?_,
    fun status hstatus => ?_⟩
  · rintro fault obs now rfl hsevere
    rcases run_cases (after file before) (.evaluate fault obs now) with
      ⟨hnone, -⟩ | ⟨status', hsome, hmode, -⟩
    · rw [hnone] at hstatus
      cases hstatus
    · obtain rfl : status = status' := Option.some.inj (hstatus.symm.trans hsome)
      rw [hmode, Call.result, nextState_mode, if_pos hsevere]
  · rintro fault reason now rfl
    rcases run_cases (after file before) (.markWriterFailure fault reason now) with
      ⟨hnone, -⟩ | ⟨status', hsome, hmode, -⟩
    · rw [hnone] at hstatus
      cases hstatus
    · obtain rfl : status = status' := Option.some.inj (hstatus.symm.trans hsome)
      rw [hmode]
      rfl
  · rw [after_concat] at hfull
    rcases resumes_cases hcons (by rw [hdegraded]; decide) hfull with hnever | ⟨-, hprobe⟩
    · exact hnever
    · rw [hdegraded] at hprobe
      cases hprobe
  · rw [after_concat] at hfull
    rcases resumes_cases hcons hnot hfull with hnever | ⟨hhealthy, hprobe⟩
    · exact Or.inl hnever
    · exact Or.inr ⟨hhealthy, probe_history hfresh before hprobe⟩
  · exact (after_consistent hfresh _).cycles.1
  · exact (after_consistent hfresh _).cycles.2
  · rcases run_cases (after file before) c with ⟨hnone, -⟩ | ⟨status', hsome, hmode, hcycles, -⟩
    · rw [hnone] at hstatus
      cases hstatus
    · obtain rfl : status = status' := Option.some.inj (hstatus.symm.trans hsome)
      rw [hmode, hcycles]
      exact (result_consistent _ c).cycles

theorem missing_fresh : Fresh .missing := by
  intro st h
  cases h

/-- A writer failure, and an evaluation while the backup is stale. -/
theorem pressure_hysteresis_stale :
    Fresh .missing ∧ Hysteresis .missing [.markWriterFailure none "disk" 2000]
      (.evaluate none ⟨200000000000, 400000000000, some 0, 4, 1⟩ 80000000) :=
  ⟨missing_fresh, pressure_hysteresis .missing missing_fresh _ _⟩

/-- The receipt that an evaluation saw. -/
def PressureObservation.receipt (obs : PressureObservation) : ℕ × Option ℤ :=
  (obs.backup_generation, obs.last_backup_success_at_unix_ms)

/-- Where capture is whole again, there were two healthy evaluations since it was degraded that saw
two receipts, or at least no unbacked data. -/
def DistinctCycles (file : StateFile) (before : List Call) (c : Call) : Prop :=
  (readPersistedState (after file before)).mode ≠ .segmentedFullWire →
    (readPersistedState (after file (before ++ [c]))).mode = .segmentedFullWire →
      ∀ fault obs now, c = .evaluate fault obs now → neverBackedUp obs = false →
        obs.unbacked_bytes = 0 ∨ ∃ a fault' obs' now' b,
          before = a ++ .evaluate fault' obs' now' :: b ∧ Healthy obs' now' ∧
            obs'.receipt ≠ obs.receipt ∧
            ∀ b₁ b₂, b = b₁ ++ b₂ → (readPersistedState (after file
              (a ++ .evaluate fault' obs' now' :: b₁))).mode ≠ .metadataOnly

/-- A receipt of generation 4, with a gigabyte that no transfer covers. -/
def freshReceipt : PressureObservation :=
  { free_bytes := 200000000000
    capacity_bytes := 400000000000
    last_backup_success_at_unix_ms := some 1000
    backup_generation := 4
    unbacked_bytes := 1000000000 }

/-- One receipt, seen by two evaluations, makes a degraded capture whole. -/
theorem one_receipt_resumes :
    ¬ DistinctCycles .missing
      [.evaluate none freshReceipt 1000, .markWriterFailure none "disk" 2000,
        .evaluate none freshReceipt 3000]
      (.evaluate none freshReceipt 4000) := by
  intro h
  rcases h (by decide +kernel) (by decide +kernel) none freshReceipt 4000 rfl (by decide) with
    hzero | ⟨a, fault', obs', now', b, hbefore, -, hdistinct, -⟩
  · exact absurd hzero (by decide)
  · have hmem : Call.evaluate fault' obs' now' ∈
        [Call.evaluate none freshReceipt 1000, .markWriterFailure none "disk" 2000,
          .evaluate none freshReceipt 3000] := by
      rw [hbefore]
      simp
    simp only [List.mem_cons, Call.evaluate.injEq, reduceCtorEq, List.not_mem_nil, or_false,
      false_or] at hmem
    rcases hmem with ⟨-, rfl, -⟩ | ⟨-, rfl, -⟩
    · exact hdistinct rfl
    · exact hdistinct rfl

end Pressure

end BodyLog

end Switchback
