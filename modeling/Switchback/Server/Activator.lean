import Switchback.Lib.Machine
import Switchback.Lib.Word

/-!
# The local-capacity activator

A lane wakes a machine when a job targets it, drains the jobs and powers the machine off after an
idle timeout.  Jobs and supervisor ticks run side by side; what they share is the lane's runtime
under its lock, and each critical section is one step.
-/

namespace Switchback

namespace Activator

open Lib

/-- `LaneState`. -/
inductive LaneState
  | offline
  | waking
  | healthy
  | draining
  | idleCountdown
  | poweringOff
  | degraded
  deriving DecidableEq

/-- The configuration of a lane. -/
structure LocalExecutorConfig where
  wake_command : Option String
  poweroff_command : Option String
  restart_command : Option String
  boot_timeout_secs : ℕ
  idle_timeout_secs : ℕ
  wake_retry_interval_secs : ℕ
  retry_budget : ℕ

/-- Seconds as milliseconds, in a machine word. -/
def secsToMs (secs : ℕ) : ℕ := min (secs * 1000) Word.u64Max

def LocalExecutorConfig.bootTimeoutMs (cfg : LocalExecutorConfig) : ℕ :=
  secsToMs cfg.boot_timeout_secs

def LocalExecutorConfig.idleTimeoutMs (cfg : LocalExecutorConfig) : ℕ :=
  secsToMs cfg.idle_timeout_secs

/-- `LaneRuntime`. -/
structure LaneRuntime where
  state : LaneState
  in_flight : ℕ
  waiting : ℕ
  idle_since_ms : Option ℕ
  last_wake_ms : Option ℕ
  last_wake_result : Option String
  last_error : Option String
  retries_used : ℕ
  wake_attempts : ℕ
  escalated : Bool
  poweroff_unconfigured_reported : Bool

/-- `LaneRuntime::new`. -/
def LaneRuntime.new : LaneRuntime :=
  { state := .offline
    in_flight := 0
    waiting := 0
    idle_since_ms := none
    last_wake_ms := none
    last_wake_result := none
    last_error := none
    retries_used := 0
    wake_attempts := 0
    escalated := false
    poweroff_unconfigured_reported := false }

/-- `EnsureError` and `JobError`. -/
inductive JobError
  | queued
  | bootTimeout (wake_path : String) (elapsed_ms : ℕ)
  | wakeFailed (error : String)
  | retriesExhausted (budget : ℕ) (last_error : String)
  | dispatch (error : String)

/-- `is_ready`. -/
def isReady (state : LaneState) : Bool :=
  state = .healthy ∨ state = .draining ∨ state = .idleCountdown

/-- `admit_locked`: one more job, and the lane drains. -/
def admitLocked (rt : LaneRuntime) : LaneRuntime :=
  { rt with
    in_flight := rt.in_flight + 1
    idle_since_ms := none
    escalated := false
    last_error := none
    retries_used := 0
    poweroff_unconfigured_reported := false
    state := .draining }

/-- `release`: one job less, and the countdown of a lane that falls idle. -/
def release (now : ℕ) (rt : LaneRuntime) : LaneRuntime :=
  if rt.in_flight - 1 = 0 ∧ (rt.state = .draining ∨ rt.state = .healthy) then
    { rt with in_flight := rt.in_flight - 1, state := .idleCountdown, idle_since_ms := some now }
  else { rt with in_flight := rt.in_flight - 1 }

/-- `escalate`. -/
def escalate (error : String) (rt : LaneRuntime) : LaneRuntime :=
  { rt with escalated := true, last_error := some error }

/-! ### A job call -/

/-- Where a call of `run_job` stands between two critical sections.  Up to `leaving` it is in
`ensure_ready`; from there on it holds its guard until it is `finished`. -/
inductive Task
  | called
  | slow
  | queued
  | checking
  | probing
  | starting
  | looping (start next_wake_at : ℕ)
  | sending (start sent_at : ℕ) (first_attempt : Bool)
  | polling (start next_wake_at : ℕ)
  | leaving (result : Option JobError)
  | holding
  | classifying (error : String)
  | healing
  | restarting
  | recovering (start : ℕ)
  | escalating (error : String) (result : JobError)
  | dropping (result : Option JobError)
  | finished (result : Option JobError)

/-- A live `LaneJobGuard` belongs to the call. -/
def Task.holdsGuard : Task → Bool
  | .leaving none => true
  | .holding | .classifying _ | .healing | .restarting | .recovering _ | .escalating _ _ => true
  | .dropping _ => true
  | _ => false

/-- The call awaits a health probe on the wake path. -/
def Task.awaitsWakeProbe : Task → Bool
  | .probing | .polling _ _ => true
  | _ => false

/-- What a call hears from outside: the answer of a probe, and the error of a command or of the
job itself, if it failed. -/
structure Answer where
  healthy : Bool
  error : Option String

variable (cfg : LocalExecutorConfig) (now : ℕ)

/-- `heal`'s command: restart, else wake. -/
def LocalExecutorConfig.healCommand : Option String :=
  cfg.restart_command.or cfg.wake_command

/-- The next critical section of a call. -/
def advance (answer : Answer) (rt : LaneRuntime) : Task → LaneRuntime × Task
  -- `ensure_ready`: the fast path, then the queue for the wake lock
  | .called => if isReady rt.state then (admitLocked rt, .holding) else (rt, .slow)
  | .slow => ({ rt with waiting := rt.waiting + 1 }, .queued)
  | .queued => (rt, .checking)
  -- `wake_and_admit`, under the wake lock
  | .checking => if isReady rt.state then (admitLocked rt, .leaving none) else (rt, .probing)
  | .probing =>
    if answer.healthy then (admitLocked rt, .leaving none)
    else if cfg.wake_command = none then
      ({ rt with state := .offline, last_wake_result := some "unconfigured" },
        .leaving (some .queued))
    else ({ rt with state := .waking, wake_attempts := 0 }, .starting)
  | .starting => (rt, .looping now now)
  | .looping start next_wake_at =>
    if now - start ≥ cfg.bootTimeoutMs then
      let wake_command := cfg.wake_command.getD ""
      ({ rt with
          state := .offline
          last_wake_result := some "timeout"
          escalated := true
          last_error := some
            s!"wake `{wake_command}` did not reach health in {now - start}ms after {rt.wake_attempts} attempt(s)" },
        .leaving (some (.bootTimeout wake_command (now - start))))
    else if now ≥ next_wake_at then (rt, .sending start now (rt.wake_attempts = 0))
    else (rt, .polling start next_wake_at)
  | .sending start sent_at first_attempt =>
    let next_wake_at := Word.satAdd sent_at (secsToMs cfg.wake_retry_interval_secs)
    match answer.error, first_attempt with
    | none, _ =>
      ({ rt with
          wake_attempts := rt.wake_attempts + 1
          last_wake_ms := some sent_at
          last_wake_result := some s!"sent (attempt {rt.wake_attempts + 1})" },
        .polling start next_wake_at)
    | some error, true =>
      ({ rt with
          wake_attempts := rt.wake_attempts + 1
          last_wake_ms := some sent_at
          state := .offline
          last_wake_result := some s!"failed: {error}"
          escalated := true
          last_error := some s!"wake command failed: {error}" },
        .leaving (some (.wakeFailed error)))
    | some error, false =>
      ({ rt with
          wake_attempts := rt.wake_attempts + 1
          last_wake_ms := some sent_at
          last_wake_result := some s!"retry send failed (attempt {rt.wake_attempts + 1}): {error}" },
        .polling start next_wake_at)
  | .polling start next_wake_at =>
    if answer.healthy then
      (admitLocked { rt with last_wake_result := some s!"ok after {rt.wake_attempts} attempt(s)" },
        .leaving none)
    else (rt, .looping start next_wake_at)
  | .leaving result =>
    ({ rt with waiting := rt.waiting - 1 }, if result.isSome then .finished result else .holding)
  -- `run_job` with its guard
  | .holding =>
    match answer.error with
    | none => (rt, .dropping none)
    | some error => (rt, .classifying error)
  | .classifying error =>
    if answer.healthy then
      ({ rt with last_error := some s!"dispatch failed: {error}" }, .dropping (some (.dispatch error)))
    else if rt.retries_used ≥ cfg.retry_budget then
      (rt, .escalating s!"retry budget {cfg.retry_budget} exhausted after health loss: {error}"
        (.retriesExhausted cfg.retry_budget error))
    else ({ rt with retries_used := rt.retries_used + 1 }, .healing)
  | .healing =>
    if cfg.healCommand = none then
      let error := "no restart_command or wake_command configured to heal"
      (rt, .escalating s!"self-heal failed: {error}" (.retriesExhausted cfg.retry_budget error))
    else ({ rt with state := .waking, last_wake_ms := some now }, .restarting)
  | .restarting =>
    match answer.error with
    | none => (rt, .recovering now)
    | some e =>
      let error := s!"restart command failed: {e}"
      (rt, .escalating s!"self-heal failed: {error}" (.retriesExhausted cfg.retry_budget error))
  | .recovering start =>
    if answer.healthy then
      ({ rt with state := .draining, last_wake_result := some "healed" }, .holding)
    else if now - start ≥ cfg.bootTimeoutMs then
      let error := s!"service did not recover within {now - start}ms"
      ({ rt with state := .degraded },
        .escalating s!"self-heal failed: {error}" (.retriesExhausted cfg.retry_budget error))
    else (rt, .recovering start)
  | .escalating error result => (escalate error rt, .dropping (some result))
  -- the guard's `Drop`
  | .dropping result => (release now rt, .finished result)
  | .finished result => (rt, .finished result)

/-- Where a tick stands: before its check, found due, running the poweroff command, at its end. -/
inductive Tick
  | called
  | due
  | running
  | finished
  deriving DecidableEq

/-- The next critical section of `tick`. -/
def tickAdvance (error : Option String) (rt : LaneRuntime) : Tick → LaneRuntime × Tick
  | .called =>
    match rt.state, rt.idle_since_ms with
    | .idleCountdown, some since =>
      if now - since ≥ cfg.idleTimeoutMs then (rt, .due) else (rt, .finished)
    | _, _ => (rt, .finished)
  | .due =>
    if cfg.poweroff_command = none then
      ({ rt with poweroff_unconfigured_reported := true }, .finished)
    else if rt.state ≠ .idleCountdown then (rt, .finished)
    else ({ rt with state := .poweringOff }, .running)
  | .running =>
    match error with
    | none =>
      if rt.state = .poweringOff then
        ({ rt with state := .offline, idle_since_ms := none }, .finished)
      else (rt, .finished)
    | some e =>
      ({ rt with
          state := .degraded
          escalated := true
          last_error := some s!"poweroff command failed: {e}" }, .finished)
  | .finished => (rt, .finished)

/-! ### Calls and ticks side by side -/

/-- A step of the world. -/
inductive Action
  | call
  | task (i : ℕ) (answer : Answer)
  | cancel (i : ℕ)
  | tickCall
  | tick (i : ℕ) (error : Option String)

/-- A step and its time. -/
structure Event where
  at_ms : ℕ
  action : Action

/-- The lane, the holder of its wake lock, the calls and the ticks so far.  `last_alive` is the time
of the last step that found a live guard. -/
structure World where
  lane : LaneRuntime
  wake_lock : Option ℕ
  calls : List Task
  ticks : List Tick
  last_alive : Option ℕ

/-- An executor that was just built. -/
def World.start : World := ⟨.new, none, [], [], none⟩

/-- The number of live guards. -/
def World.guards (w : World) : ℕ := w.calls.countP Task.holdsGuard

/-- A poweroff command is running. -/
def World.poweroffRunning (w : World) : Prop := Tick.running ∈ w.ticks

/-- A call steps.  A queued call takes the wake lock when it is free, and gives it back with its
last step on the wake path. -/
def stepTask (i : ℕ) (answer : Answer) (w : World) : World :=
  match w.calls[i]? with
  | none => w
  | some .queued =>
    if w.wake_lock = none then
      { w with wake_lock := some i, calls := w.calls.set i .checking }
    else w
  | some (.leaving result) =>
    let out := advance cfg now answer w.lane (.leaving result)
    { w with lane := out.1, calls := w.calls.set i out.2, wake_lock := none }
  | some task =>
    let out := advance cfg now answer w.lane task
    { w with lane := out.1, calls := w.calls.set i out.2 }

/-- A call is cancelled, or its caller drops the guard: a guard is released, and so is the wake
lock. -/
def stepCancel (i : ℕ) (w : World) : World :=
  match w.calls[i]? with
  | none => w
  | some task =>
    { w with
      lane := if task.holdsGuard then release now w.lane else w.lane
      calls := w.calls.set i (.finished none)
      wake_lock := if w.wake_lock = some i then none else w.wake_lock }

/-- A tick steps. -/
def stepTick (i : ℕ) (error : Option String) (w : World) : World :=
  match w.ticks[i]? with
  | none => w
  | some tick =>
    let out := tickAdvance cfg now error w.lane tick
    { w with lane := out.1, ticks := w.ticks.set i out.2 }

/-- A step at a time finds the guards that are alive. -/
def World.noteAlive (w : World) : World :=
  if 0 < w.guards then { w with last_alive := some now } else w

/-- What a step does to the calls, the ticks and the lane. -/
def perform (w : World) : Action → World
  | .call => { w with calls := w.calls ++ [.called] }
  | .task i answer => stepTask cfg now i answer w
  | .cancel i => stepCancel now i w
  | .tickCall => { w with ticks := w.ticks ++ [.called] }
  | .tick i error => stepTick cfg now i error w

/-- One step. -/
def step (w : World) (e : Event) : World := perform cfg e.at_ms (w.noteAlive e.at_ms) e.action

/-- A job is taken on. -/
structure Admits (answer : Answer) (rt rt' : LaneRuntime) (task task' : Task) : Prop where
  before : task.holdsGuard = false
  after : task'.holdsGuard = true
  ready : isReady rt.state = true ∨ (task.awaitsWakeProbe = true ∧ answer.healthy = true)
  in_flight : rt'.in_flight = rt.in_flight + 1
  state : rt'.state = .draining

/-- A job is given up. -/
structure Releases (rt rt' : LaneRuntime) (task task' : Task) : Prop where
  before : task.holdsGuard = true
  after : task'.holdsGuard = false
  lane : rt' = release now rt

/-- The jobs stay, and the lane moves at most on the wake path or, with a job, in a heal. -/
structure Keeps (rt rt' : LaneRuntime) (task task' : Task) : Prop where
  guard : task'.holdsGuard = task.holdsGuard
  in_flight : rt'.in_flight = rt.in_flight
  idle_since : rt'.idle_since_ms = rt.idle_since_ms
  state : rt'.state = rt.state ∨ rt'.state = .offline ∨ rt'.state = .waking ∨
    (task.holdsGuard = true ∧ (rt'.state = .draining ∨ rt'.state = .degraded))

variable {cfg now}

theorem Keeps.refl {rt : LaneRuntime} {task task' : Task}
    (h : task'.holdsGuard = task.holdsGuard) : Keeps rt rt task task' :=
  ⟨h, rfl, rfl, Or.inl rfl⟩

/-- **What a step of a call can do.** -/
theorem advance_cases (answer : Answer) (rt : LaneRuntime) (task : Task) :
    Admits answer rt (advance cfg now answer rt task).1 task (advance cfg now answer rt task).2 ∨
      Releases now rt (advance cfg now answer rt task).1 task (advance cfg now answer rt task).2 ∨
      Keeps rt (advance cfg now answer rt task).1 task (advance cfg now answer rt task).2 := by
  cases task with
  | called | checking =>
    simp only [advance]
    split_ifs with h
    · exact Or.inl ⟨rfl, rfl, Or.inl h, rfl, rfl⟩
    · exact Or.inr (Or.inr (.refl rfl))
  | probing =>
    simp only [advance]
    split_ifs with h hcommand
    · exact Or.inl ⟨rfl, rfl, Or.inr ⟨rfl, h⟩, rfl, rfl⟩
    · exact Or.inr (Or.inr ⟨rfl, rfl, rfl, Or.inr (Or.inl rfl)⟩)
    · exact Or.inr (Or.inr ⟨rfl, rfl, rfl, Or.inr (Or.inr (Or.inl rfl))⟩)
  | polling start next =>
    simp only [advance]
    split_ifs with h
    · exact Or.inl ⟨rfl, rfl, Or.inr ⟨rfl, h⟩, rfl, rfl⟩
    · exact Or.inr (Or.inr (.refl rfl))
  | looping start next =>
    simp only [advance]
    split_ifs with hdeadline hdue
    · exact Or.inr (Or.inr ⟨rfl, rfl, rfl, Or.inr (Or.inl rfl)⟩)
    · exact Or.inr (Or.inr (.refl rfl))
    · exact Or.inr (Or.inr (.refl rfl))
  | sending start sent_at first =>
    simp only [advance]
    split
    · exact Or.inr (Or.inr ⟨rfl, rfl, rfl, Or.inl rfl⟩)
    · exact Or.inr (Or.inr ⟨rfl, rfl, rfl, Or.inr (Or.inl rfl)⟩)
    · exact Or.inr (Or.inr ⟨rfl, rfl, rfl, Or.inl rfl⟩)
  | leaving result =>
    cases result with
    | none => exact Or.inr (Or.inr ⟨rfl, rfl, rfl, Or.inl rfl⟩)
    | some e => exact Or.inr (Or.inr ⟨rfl, rfl, rfl, Or.inl rfl⟩)
  | holding =>
    simp only [advance]
    split
    · exact Or.inr (Or.inr (.refl rfl))
    · exact Or.inr (Or.inr (.refl rfl))
  | classifying error =>
    simp only [advance]
    split_ifs with hhealthy hbudget
    · exact Or.inr (Or.inr ⟨rfl, rfl, rfl, Or.inl rfl⟩)
    · exact Or.inr (Or.inr (.refl rfl))
    · exact Or.inr (Or.inr ⟨rfl, rfl, rfl, Or.inl rfl⟩)
  | healing =>
    simp only [advance]
    split_ifs with hcommand
    · exact Or.inr (Or.inr (.refl rfl))
    · exact Or.inr (Or.inr ⟨rfl, rfl, rfl, Or.inr (Or.inr (Or.inl rfl))⟩)
  | restarting =>
    simp only [advance]
    split
    · exact Or.inr (Or.inr (.refl rfl))
    · exact Or.inr (Or.inr (.refl rfl))
  | recovering start =>
    simp only [advance]
    split_ifs with hhealthy hdeadline
    · exact Or.inr (Or.inr ⟨rfl, rfl, rfl, Or.inr (Or.inr (Or.inr ⟨rfl, Or.inl rfl⟩))⟩)
    · exact Or.inr (Or.inr ⟨rfl, rfl, rfl, Or.inr (Or.inr (Or.inr ⟨rfl, Or.inr rfl⟩))⟩)
    · exact Or.inr (Or.inr (.refl rfl))
  | dropping result => exact Or.inr (Or.inl ⟨rfl, rfl, rfl⟩)
  | slow | escalating error result => exact Or.inr (Or.inr ⟨rfl, rfl, rfl, Or.inl rfl⟩)
  | queued | starting | finished result => exact Or.inr (Or.inr (.refl rfl))

/-! ### Guards and the runtime agree -/

theorem countP_set_calls {calls : List Task} {i : ℕ} {task : Task} (h : calls[i]? = some task)
    (task' : Task) :
    (calls.set i task').countP Task.holdsGuard + (if task.holdsGuard then 1 else 0) =
      calls.countP Task.holdsGuard + (if task'.holdsGuard then 1 else 0) := by
  obtain ⟨hlt, hget⟩ := List.getElem?_eq_some_iff.1 h
  have hle : (if task.holdsGuard then 1 else 0) ≤ calls.countP Task.holdsGuard := by
    split_ifs with hguard
    · exact List.countP_pos_iff.2 ⟨task, List.mem_of_getElem? h, hguard⟩
    · omega
  rw [List.countP_set hlt, hget]
  omega

/-- A health probe of the wake path answers that the machine is up. -/
def WakeProbe (w : World) (a : Action) : Prop :=
  ∃ i answer task, a = .task i answer ∧ w.calls[i]? = some task ∧
    task.awaitsWakeProbe = true ∧ answer.healthy = true

/-- A step of the world, seen from the guards: one more, one less, or the same. -/
inductive Moves (now : ℕ) (a : Action) (w w' : World) : Prop
  | admits (cause : isReady w.lane.state = true ∨ WakeProbe w a)
      (guards : w'.guards = w.guards + 1) (in_flight : w'.lane.in_flight = w.lane.in_flight + 1)
      (state : w'.lane.state = .draining)
  | releases (alive : 0 < w.guards) (guards : w'.guards = w.guards - 1)
      (lane : w'.lane = release now w.lane)
  | keeps (guards : w'.guards = w.guards) (in_flight : w'.lane.in_flight = w.lane.in_flight)
      (lane : (w'.lane.state = w.lane.state ∧ w'.lane.idle_since_ms = w.lane.idle_since_ms) ∨
        isReady w'.lane.state = false ∨ (0 < w.guards ∧ w'.lane.state ≠ .idleCountdown))

theorem guards_pos {w : World} {i : ℕ} {task : Task} (hget : w.calls[i]? = some task)
    (h : task.holdsGuard = true) : 0 < w.guards :=
  List.countP_pos_iff.2 ⟨task, List.mem_of_getElem? hget, h⟩

theorem moves_advance {w w' : World} {i : ℕ} {task : Task} (hget : w.calls[i]? = some task)
    {answer : Answer} (hlane : w'.lane = (advance cfg now answer w.lane task).1)
    (hcalls : w'.calls = w.calls.set i (advance cfg now answer w.lane task).2) :
    Moves now (.task i answer) w w' := by
  have hcount := countP_set_calls hget (advance cfg now answer w.lane task).2
  rw [← hcalls] at hcount
  rcases @advance_cases cfg now answer w.lane task with h | h | h
  · rw [h.before, h.after] at hcount
    refine .admits ?_ hcount (hlane ▸ h.in_flight) (hlane ▸ h.state)
    rcases h.ready with hready | ⟨hprobe, hhealthy⟩
    · exact Or.inl hready
    · exact Or.inr ⟨i, answer, task, rfl, hget, hprobe, hhealthy⟩
  · rw [h.before, h.after] at hcount
    exact .releases (guards_pos hget h.before) (Nat.eq_sub_of_add_eq hcount) (hlane.trans h.lane)
  · rw [h.guard] at hcount
    refine .keeps (Nat.add_right_cancel hcount) (hlane ▸ h.in_flight) ?_
    rw [hlane]
    rcases h.state with hsame | hoff | hwake | ⟨hguard, hheal⟩
    · exact Or.inl ⟨hsame, h.idle_since⟩
    · exact Or.inr (Or.inl (by rw [hoff]; rfl))
    · exact Or.inr (Or.inl (by rw [hwake]; rfl))
    · refine Or.inr (Or.inr ⟨guards_pos hget hguard, ?_⟩)
      rcases hheal with hheal | hheal <;> rw [hheal] <;> decide

theorem tickAdvance_cases (error : Option String) (rt : LaneRuntime) (tick : Tick) :
    (tickAdvance cfg now error rt tick).1.in_flight = rt.in_flight ∧
      (((tickAdvance cfg now error rt tick).1.state = rt.state ∧
          (tickAdvance cfg now error rt tick).1.idle_since_ms = rt.idle_since_ms) ∨
        isReady (tickAdvance cfg now error rt tick).1.state = false) := by
  cases tick with
  | called =>
    simp only [tickAdvance]
    split
    · split_ifs <;> exact ⟨rfl, Or.inl ⟨rfl, rfl⟩⟩
    · exact ⟨rfl, Or.inl ⟨rfl, rfl⟩⟩
  | due =>
    simp only [tickAdvance]
    split_ifs
    · exact ⟨rfl, Or.inl ⟨rfl, rfl⟩⟩
    · exact ⟨rfl, Or.inl ⟨rfl, rfl⟩⟩
    · exact ⟨rfl, Or.inr rfl⟩
  | running =>
    simp only [tickAdvance]
    split
    · split_ifs
      · exact ⟨rfl, Or.inr rfl⟩
      · exact ⟨rfl, Or.inl ⟨rfl, rfl⟩⟩
    · exact ⟨rfl, Or.inr rfl⟩
  | finished => exact ⟨rfl, Or.inl ⟨rfl, rfl⟩⟩

/-- **What a step can do to the guards.** -/
theorem perform_moves (w : World) (a : Action) : Moves now a w (perform cfg now w a) := by
  have hsame : Moves now a w w := .keeps rfl rfl (Or.inl ⟨rfl, rfl⟩)
  cases a with
  | call => exact .keeps (by simp [World.guards, perform, Task.holdsGuard]) rfl (Or.inl ⟨rfl, rfl⟩)
  | tickCall => exact .keeps rfl rfl (Or.inl ⟨rfl, rfl⟩)
  | task i answer =>
    simp only [perform, stepTask]
    split
    · exact hsame
    · rename_i hget
      split_ifs
      · refine .keeps ?_ rfl (Or.inl ⟨rfl, rfl⟩)
        have hcount := countP_set_calls hget .checking
        rw [show Task.queued.holdsGuard = false from rfl] at hcount
        exact hcount
      · exact hsame
    · rename_i hget
      exact moves_advance hget rfl rfl
    · rename_i hget
      exact moves_advance hget rfl rfl
  | cancel i =>
    simp only [perform, stepCancel]
    split
    · exact hsame
    · rename_i task hget
      have hcount := countP_set_calls hget (.finished none)
      by_cases hguard : task.holdsGuard = true
      · rw [hguard] at hcount
        refine .releases (guards_pos hget hguard) (Nat.eq_sub_of_add_eq hcount) (by simp [hguard])
      · rw [Bool.eq_false_iff.2 hguard] at hcount
        exact .keeps hcount (by simp [hguard]) (Or.inl (by simp [hguard]))
  | tick i error =>
    simp only [perform, stepTick]
    split
    · exact hsame
    · rename_i tick hget
      obtain ⟨hflight, hlane⟩ := @tickAdvance_cases cfg now error w.lane tick
      exact .keeps rfl hflight (hlane.imp_right Or.inl)

/-- The runtime counts the live guards, and a countdown runs since the last of them was dropped. -/
structure Counted (w : World) : Prop where
  guards : w.lane.in_flight = w.guards
  countdown : w.lane.state = .idleCountdown →
    w.guards = 0 ∧ ∃ r, w.lane.idle_since_ms = some r ∧ w.last_alive = some r

@[simp] theorem noteAlive_lane (w : World) : (w.noteAlive now).lane = w.lane := by
  unfold World.noteAlive
  split_ifs <;> rfl

@[simp] theorem noteAlive_calls (w : World) : (w.noteAlive now).calls = w.calls := by
  unfold World.noteAlive
  split_ifs <;> rfl

@[simp] theorem noteAlive_ticks (w : World) : (w.noteAlive now).ticks = w.ticks := by
  unfold World.noteAlive
  split_ifs <;> rfl

@[simp] theorem noteAlive_guards (w : World) : (w.noteAlive now).guards = w.guards := by
  simp [World.guards]

theorem noteAlive_of_guards {w : World} (h : 0 < w.guards) :
    (w.noteAlive now).last_alive = some now := by
  rw [World.noteAlive, if_pos h]

theorem noteAlive_of_idle {w : World} (h : w.guards = 0) : w.noteAlive now = w := by
  rw [World.noteAlive, if_neg (by omega)]

theorem Counted.noteAlive {w : World} (h : Counted w) (now : ℕ) : Counted (w.noteAlive now) := by
  refine ⟨by simpa using h.guards, fun hidle => ?_⟩
  rw [noteAlive_lane] at hidle
  rw [noteAlive_of_idle (h.countdown hidle).1]
  exact h.countdown hidle

theorem perform_last_alive (w : World) (a : Action) :
    (perform cfg now w a).last_alive = w.last_alive := by
  cases a with
  | call | tickCall => rfl
  | task i answer =>
    simp only [perform, stepTask]
    split
    · rfl
    · split_ifs <;> rfl
    · rfl
    · rfl
  | cancel i =>
    simp only [perform, stepCancel]
    split <;> rfl
  | tick i error =>
    simp only [perform, stepTick]
    split <;> rfl

theorem step_counted {w : World} (h : Counted w) (e : Event) : Counted (step cfg w e) := by
  have hnote := h.noteAlive e.at_ms
  have halive : (step cfg w e).last_alive = (w.noteAlive e.at_ms).last_alive :=
    perform_last_alive _ _
  rcases @perform_moves cfg e.at_ms (w.noteAlive e.at_ms) e.action with
    ⟨-, hguards, hflight, hstate⟩ | ⟨hpos, hguards, hlane⟩ | ⟨hguards, hflight, hlane⟩
  · refine ⟨by rw [step, hflight, hguards, hnote.guards], fun hidle => ?_⟩
    rw [step, hstate] at hidle
    cases hidle
  · have hcount := hnote.guards
    rw [step]
    refine ⟨?_, fun hidle => ?_⟩
    · rw [hlane, hguards, release]
      split_ifs <;> simp only [hcount]
    · rw [noteAlive_guards] at hpos
      rw [hlane, release] at hidle ⊢
      split_ifs at hidle ⊢ with hlast
      · refine ⟨by rw [hguards, ← hcount, hlast.1], e.at_ms, rfl, ?_⟩
        rw [perform_last_alive, noteAlive_of_guards hpos]
      · -- a countdown with a live guard cannot be
        have hzero := (hnote.countdown hidle).1
        rw [noteAlive_guards] at hzero
        omega
  · refine ⟨by rw [step, hflight, hguards, hnote.guards], fun hidle => ?_⟩
    rw [halive]
    rw [step] at hidle ⊢
    rcases hlane with ⟨hstate, hsince⟩ | hready | ⟨-, hne⟩
    · rw [hguards, hsince]
      rw [hstate] at hidle
      exact hnote.countdown hidle
    · rw [hidle] at hready
      cases hready
    · exact absurd hidle hne

/-! ### Poweroff -/

/-- The step starts a poweroff command. -/
def Starts (cfg : LocalExecutorConfig) (w : World) (e : Event) : Prop :=
  ∃ i : ℕ, (step cfg w e).ticks[i]? = some Tick.running ∧ w.ticks[i]? ≠ some Tick.running

/-- A step is safe: no guard is alive while a poweroff command runs, and where the step starts one,
no guard was alive for the whole idle timeout. -/
def SafeStep (cfg : LocalExecutorConfig) (w : World) (e : Event) : Prop :=
  ((step cfg w e).poweroffRunning → (step cfg w e).guards = 0) ∧
    (Starts cfg w e → ∀ u, (w.noteAlive e.at_ms).last_alive = some u →
      u + cfg.idleTimeoutMs ≤ e.at_ms)

/-- A tick that found the lane due looks again, and finds it in a countdown. -/
def Rechecks (cfg : LocalExecutorConfig) (w : World) (e : Event) : Prop :=
  ∃ i error, e.action = .tick i error ∧ w.ticks[i]? = some Tick.due ∧
    cfg.poweroff_command ≠ none ∧ w.lane.state = .idleCountdown

/-- A step meets the condition: the wake path hears of no healthy machine while a poweroff command
runs, and a tick that looks again finds a countdown that has run out. -/
def StepOk (cfg : LocalExecutorConfig) (w : World) (e : Event) : Prop :=
  (WakeProbe w e.action → ¬ w.poweroffRunning) ∧
    (Rechecks cfg w e → ∀ r, w.lane.idle_since_ms = some r → r + cfg.idleTimeoutMs ≤ e.at_ms)

theorem perform_task_ticks (w : World) (i : ℕ) (answer : Answer) :
    (perform cfg now w (.task i answer)).ticks = w.ticks := by
  simp only [perform, stepTask]
  split
  · rfl
  · split_ifs <;> rfl
  · rfl
  · rfl

theorem perform_cancel_ticks (w : World) (i : ℕ) :
    (perform cfg now w (.cancel i)).ticks = w.ticks := by
  simp only [perform, stepCancel]
  split <;> rfl

theorem tickAdvance_running {error : Option String} {rt : LaneRuntime} {tick : Tick}
    (h : (tickAdvance cfg now error rt tick).2 = .running) :
    tick = .due ∧ cfg.poweroff_command ≠ none ∧ rt.state = .idleCountdown ∧
      (tickAdvance cfg now error rt tick).1.state = .poweringOff := by
  cases tick with
  | called =>
    simp only [tickAdvance] at h
    split at h
    · split_ifs at h
    · cases h
  | due =>
    simp only [tickAdvance] at h ⊢
    by_cases hcommand : cfg.poweroff_command = none
    · simp [hcommand] at h
    · by_cases hstate : rt.state = .idleCountdown
      · simp [hcommand, hstate]
      · simp [hcommand, hstate] at h
  | running =>
    simp only [tickAdvance] at h
    split at h
    · split_ifs at h
    · cases h
  | finished => cases h

/-- **Which step starts a poweroff command.** -/
theorem starts_cases {w : World} {e : Event} (h : Starts cfg w e) :
    Rechecks cfg w e ∧ (step cfg w e).lane.state = .poweringOff ∧
      (step cfg w e).guards = w.guards := by
  obtain ⟨i, hrun, hbefore⟩ := h
  rw [step] at hrun ⊢
  rw [Rechecks, ← @noteAlive_ticks e.at_ms w, ← @noteAlive_lane e.at_ms w,
    ← @noteAlive_guards e.at_ms w]
  rw [← @noteAlive_ticks e.at_ms w] at hbefore
  generalize w.noteAlive e.at_ms = w at *
  cases ha : e.action with
  | call =>
    rw [ha] at hrun
    exact absurd hrun hbefore
  | tickCall =>
    rw [ha] at hrun
    simp only [perform, List.getElem?_append] at hrun
    split_ifs at hrun
    · exact absurd hrun hbefore
    · rw [List.getElem?_singleton] at hrun
      split_ifs at hrun
      cases hrun
  | task j answer =>
    rw [ha, perform_task_ticks] at hrun
    exact absurd hrun hbefore
  | cancel j =>
    rw [ha, perform_cancel_ticks] at hrun
    exact absurd hrun hbefore
  | tick j error =>
    rw [ha] at hrun
    simp only [perform, stepTick] at hrun ⊢
    cases hget : w.ticks[j]? with
    | none =>
      simp only [hget] at hrun
      exact absurd hrun hbefore
    | some tick =>
      simp only [hget] at hrun ⊢
      rw [List.getElem?_set] at hrun
      split_ifs at hrun with hij hlt
      · obtain ⟨rfl, hcommand, hidle, hoff⟩ := tickAdvance_running (Option.some.inj hrun)
        exact ⟨⟨j, error, rfl, hget, hcommand, hidle⟩, hoff, rfl⟩
      · exact absurd hrun hbefore

theorem starts_iff {w : World} {e : Event} : Starts cfg w e ↔ Rechecks cfg w e := by
  refine ⟨fun h => (starts_cases h).1, ?_⟩
  rintro ⟨i, error, ha, hget, hcommand, hidle⟩
  refine ⟨i, ?_, by rw [hget]; decide⟩
  obtain ⟨hlt, -⟩ := List.getElem?_eq_some_iff.1 hget
  rw [step, ha]
  simp only [perform, stepTick, noteAlive_ticks, hget, noteAlive_lane, tickAdvance, hcommand, hidle,
    if_false, ne_eq, not_true_eq_false]
  rw [List.getElem?_set_self hlt]

theorem poweroffRunning_step {w : World} {e : Event} (h : (step cfg w e).poweroffRunning) :
    w.poweroffRunning ∨ Starts cfg w e := by
  obtain ⟨i, hi⟩ := List.mem_iff_getElem?.1 h
  by_cases hbefore : w.ticks[i]? = some Tick.running
  · exact Or.inl (List.mem_of_getElem? hbefore)
  · exact Or.inr ⟨i, hi, hbefore⟩

/-- While a poweroff command runs, no guard is alive and the lane does not look ready. -/
structure Guarded (w : World) : Prop where
  counted : Counted w
  poweroff : w.poweroffRunning → w.guards = 0 ∧ isReady w.lane.state = false

theorem guarded_start : Guarded .start :=
  ⟨⟨rfl, fun h => by cases h⟩, fun h => by cases h⟩

/-- **The step lemma.**  A step that meets the first half of the condition keeps the guard. -/
theorem step_guarded {w : World} (h : Guarded w) {e : Event}
    (hprobe : WakeProbe w e.action → ¬ w.poweroffRunning) : Guarded (step cfg w e) := by
  refine ⟨step_counted h.counted e, fun hrun => ?_⟩
  rcases poweroffRunning_step hrun with hbefore | hstart
  · obtain ⟨hzero, hready⟩ := h.poweroff hbefore
    rw [← @noteAlive_guards e.at_ms] at hzero
    rw [← @noteAlive_lane e.at_ms] at hready
    rcases @perform_moves cfg e.at_ms (w.noteAlive e.at_ms) e.action with
      ⟨hcause, -⟩ | ⟨hpos, -⟩ | ⟨hguards, -, hlane⟩
    · rcases hcause with hcause | ⟨i, answer, task, ha, hget, hwake, hhealthy⟩
      · rw [hcause] at hready
        cases hready
      · rw [noteAlive_calls] at hget
        exact absurd hbefore (hprobe ⟨i, answer, task, ha, hget, hwake, hhealthy⟩)
    · omega
    · refine ⟨hguards.trans hzero, ?_⟩
      rcases hlane with ⟨hstate, -⟩ | hnot | ⟨hpos, -⟩
      · rw [step, hstate]
        exact hready
      · exact hnot
      · omega
  · obtain ⟨⟨-, -, -, -, -, hidle⟩, hoff, hguards⟩ := starts_cases hstart
    rw [hguards, hoff]
    exact ⟨(h.counted.countdown hidle).1, rfl⟩

theorem wakeProbe_guards {w : World} {e : Event} (h : WakeProbe w e.action) :
    0 < (step cfg w e).guards ∧ (w.poweroffRunning → (step cfg w e).poweroffRunning) := by
  obtain ⟨i, answer, task, ha, hget, hwake, hhealthy⟩ := h
  rw [step, ha]
  refine ⟨?_, fun hrun => by rwa [World.poweroffRunning, perform_task_ticks, noteAlive_ticks]⟩
  rw [← @noteAlive_calls e.at_ms w] at hget
  generalize w.noteAlive e.at_ms = w at *
  obtain ⟨hlt, -⟩ := List.getElem?_eq_some_iff.1 hget
  cases task with
  | probing | polling start next =>
    refine @guards_pos _ i (.leaving none) ?_ rfl
    simp only [perform, stepTask, hget, advance, hhealthy, if_true]
    rw [List.getElem?_set_self hlt]
  | _ => cases hwake

theorem rechecks_countdown {w : World} (h : Counted w) {e : Event} (hagain : Rechecks cfg w e) :
    ∃ r, w.lane.idle_since_ms = some r ∧ (w.noteAlive e.at_ms).last_alive = some r := by
  obtain ⟨-, -, -, -, -, hidle⟩ := hagain
  obtain ⟨hzero, r, hsince, halive⟩ := h.countdown hidle
  rw [noteAlive_of_idle hzero]
  exact ⟨r, hsince, halive⟩

theorem safeStep_iff {w : World} (h : Guarded w) (e : Event) :
    SafeStep cfg w e ↔ StepOk cfg w e := by
  rw [SafeStep, StepOk, starts_iff]
  constructor
  · rintro ⟨hsafe, hidle⟩
    refine ⟨fun hprobe hrun => ?_, fun hagain r hr => ?_⟩
    · obtain ⟨hpos, hkeep⟩ := @wakeProbe_guards cfg w e hprobe
      have := hsafe (hkeep hrun)
      omega
    · obtain ⟨r', hsince, halive⟩ := rechecks_countdown h.counted hagain
      obtain rfl : r = r' := Option.some.inj (hr.symm.trans hsince)
      exact hidle hagain r halive
  · rintro ⟨hprobe, hcheck⟩
    refine ⟨fun hrun => ((step_guarded h hprobe).poweroff hrun).1, fun hagain u hu => ?_⟩
    obtain ⟨r, hsince, halive⟩ := rechecks_countdown h.counted hagain
    obtain rfl : u = r := Option.some.inj (hu.symm.trans halive)
    exact hcheck hagain u hsince

/-- **A machine and its jobs.**  In every interleaving of calls, drops and ticks, every step is safe
exactly when every step meets the condition. -/
theorem poweroff_safe_iff (cfg : LocalExecutorConfig) (events : List Event) :
    (∀ v ∈ Machine.visited (step cfg) .start events, SafeStep cfg v.1 v.2) ↔
      ∀ v ∈ Machine.visited (step cfg) .start events, StepOk cfg v.1 v.2 := by
  have hok (w : World) (e : Event) (h : Guarded w) : SafeStep cfg w e ↔ StepOk cfg w e :=
    safeStep_iff h e
  have hkeep (w : World) (e : Event) (h : Guarded w) (ho : StepOk cfg w e) :
      Guarded (step cfg w e) := step_guarded h ho.1
  exact Machine.safe_steps_iff hok hkeep guarded_start events

/-! ### Two interleavings that go wrong -/

/-- A lane with a minute of idle time. -/
def minuteLane : LocalExecutorConfig :=
  { wake_command := some "wake"
    poweroff_command := some "poweroff"
    restart_command := none
    boot_timeout_secs := 300
    idle_timeout_secs := 60
    wake_retry_interval_secs := 30
    retry_budget := 1 }

/-- Steps of call `i` at a time, with every probe healthy and every command fine. -/
def taskSteps (i at_ms n : ℕ) : List Event := List.replicate n ⟨at_ms, .task i ⟨true, none⟩⟩

/-- A job from its call to its end: six steps to its guard, two to drop it. -/
def jobRun (i at_ms : ℕ) : List Event := ⟨at_ms, .call⟩ :: taskSteps i at_ms 8

/-- A job runs, the lane falls idle and is powered off; while the command runs, a second job finds
the machine still answering. -/
def arrivalDuringPoweroff : List Event :=
  jobRun 0 1000 ++ [⟨61000, .tickCall⟩, ⟨61000, .tick 0 none⟩, ⟨61000, .tick 0 none⟩] ++
    ⟨61500, .call⟩ :: taskSteps 1 61500 4

/-- Between the two looks of a tick a job comes and goes. -/
def jobBetweenLooks : List Event :=
  jobRun 0 1000 ++ [⟨61000, .tickCall⟩, ⟨61000, .tick 0 none⟩] ++
    ⟨61000, .call⟩ :: taskSteps 1 61000 3

theorem mem_visited_last (cfg : LocalExecutorConfig) (events : List Event) (e : Event) :
    (events.foldl (step cfg) .start, e) ∈
      Machine.visited (step cfg) .start (events ++ [e]) := by
  rw [Machine.visited_append]
  simp [Machine.visited]

theorem not_safeStep_of_guard {w : World} {e : Event} (hrun : Tick.running ∈ (step cfg w e).ticks)
    (hguards : (step cfg w e).guards = 1) : ¬ SafeStep cfg w e := by
  intro hsafe
  have := hsafe.1 hrun
  omega

theorem not_safeStep_of_start {w : World} {e : Event} {i u : ℕ}
    (hstart : (step cfg w e).ticks[i]? = some Tick.running) (hbefore : w.ticks[i]? = some Tick.due)
    (halive : (w.noteAlive e.at_ms).last_alive = some u) (hlt : e.at_ms < u + cfg.idleTimeoutMs) :
    ¬ SafeStep cfg w e := by
  intro hsafe
  have := hsafe.2 ⟨i, hstart, by rw [hbefore]; decide⟩ u halive
  omega

/-- In the one a job runs under a poweroff command, in the other a poweroff command starts a
moment after a job. -/
theorem poweroff_under_job :
    (¬ ∀ v ∈ Machine.visited (step minuteLane) .start
      (arrivalDuringPoweroff ++ [⟨61600, .task 1 ⟨true, none⟩⟩]), SafeStep minuteLane v.1 v.2) ∧
    ¬ ∀ v ∈ Machine.visited (step minuteLane) .start
      (jobBetweenLooks ++ [⟨61001, .tick 0 none⟩]), SafeStep minuteLane v.1 v.2 := by
  constructor
  · intro h
    refine not_safeStep_of_guard ?_ ?_ (h _ (mem_visited_last minuteLane arrivalDuringPoweroff _))
    · decide +kernel
    · decide +kernel
  · intro h
    refine @not_safeStep_of_start minuteLane _ _ 0 61000 ?_ ?_ ?_ ?_
      (h _ (mem_visited_last minuteLane jobBetweenLooks _))
    · decide +kernel
    · decide +kernel
    · decide +kernel
    · decide +kernel

end Activator

end Switchback
