import Switchback.Quality.Worker

/-!
# The probe permit of the judge worker

After a pause one job is let in to probe, and its permit must come back.
-/

namespace Switchback

namespace Quality

open Lib

/-! ### Pauses in a log -/

/-- The pause that stands, and how many jobs it has let in. -/
def nextPause : Option (ℕ × ℕ) → PauseEvent → Option (ℕ × ℕ)
  | p, .admitted _ => p.map fun p => (p.1, p.2 + 1)
  | _, .paused u => some (u, 0)
  | _, .closed => none

def pauseOf (log : List PauseEvent) : Option (ℕ × ℕ) := log.foldl nextPause none

/-- While a pause stands, a job is let in only after it is over, and only one. -/
def OnePerPause (log : List PauseEvent) : Prop :=
  ∀ a now b, log = a ++ .admitted now :: b → ∀ p, pauseOf a = some p → p.1 ≤ now ∧ p.2 = 0

theorem pauseOf_append (a b : List PauseEvent) :
    pauseOf (a ++ b) = b.foldl nextPause (pauseOf a) := List.foldl_append

theorem onePerPause_nil : OnePerPause [] := by
  intro a now b h
  exact absurd h.symm (by simp)

theorem OnePerPause.concat {log : List PauseEvent} (h : OnePerPause log) {e : PauseEvent}
    (he : ∀ now, e = .admitted now → ∀ p, pauseOf log = some p → p.1 ≤ now ∧ p.2 = 0) :
    OnePerPause (log ++ [e]) := by
  intro a now b hsplit p hp
  rcases List.eq_nil_or_concat b with rfl | ⟨b, last, rfl⟩
  · obtain ⟨rfl, hlast⟩ := List.append_inj' hsplit rfl
    exact he now (List.singleton_inj.mp hlast) p hp
  · have hassoc : a ++ PauseEvent.admitted now :: (b ++ [last]) =
        (a ++ PauseEvent.admitted now :: b) ++ [last] := by simp
    rw [List.concat_eq_append, hassoc] at hsplit
    obtain ⟨rfl, -⟩ := List.append_inj' hsplit rfl
    exact h a now b rfl p hp

/-- Events that let nobody in. -/
theorem OnePerPause.append {log : List PauseEvent} (h : OnePerPause log) {es : List PauseEvent}
    (hes : ∀ now, PauseEvent.admitted now ∉ es) : OnePerPause (log ++ es) := by
  induction es generalizing log with
  | nil => simpa using h
  | cons e es ih =>
    have hfirst : OnePerPause (log ++ [e]) := by
      apply h.concat
      rintro now rfl
      exact absurd List.mem_cons_self (hes now)
    have hrest := ih hfirst fun now hmem => hes now (List.mem_cons_of_mem e hmem)
    simpa using hrest

/-! ### Conditions -/

/-- A pause that follows another fits the clock. -/
def InRange (b : Backoff) (cfg : EvalConfig) (now : ℕ) : Prop :=
  b.pausedUntil.isSome → (checkedAddSecs now cfg.failureBackoffSecs).isSome

/-- A job has its texts, every allowed target has its price, and an attached store answers the
reservation with a new one or with an error. -/
def Reaches (outside : Outside) (snap : JudgeSnapshot) (job : QualityJob)
    (requestId judgmentId : String) (reserve : Option ReserveFn) (createdAtMs : ℤ) : Prop :=
  ∃ cost fn, jobCost outside snap job requestId = some (some cost) ∧ reserve = some fn ∧
    let answer := fn (reservationOf outside snap job requestId judgmentId cost createdAtMs)
      snap.quality.maxJudgmentsPer24h snap.quality.maxCostMicrosPer24h
      (Word.satSubI64 createdAtMs (24 * 60 * 60 * 1000))
    answer = .ok .reserved ∨ ∃ e, answer = .error e

/-- A job with the probe permit reaches the judge or a store error, and where a pause stood the new
one fits the clock. -/
def Ok (outside : Outside) (w : World) : Input → Prop
  | .begin' cfg s now =>
    cfg.enabled = true → s.eligible = true → (∃ e, s.budget = some (.error e)) →
      InRange w.backoff cfg now
  | .enter _ _ _ => True
  | .launch requestId judgmentId reserve createdAtMs now =>
    ∀ snap job, w.phase = .entered snap job →
      (w.backoff.probeInFlight = true →
        Reaches outside snap job requestId judgmentId reserve createdAtMs) ∧
      InRange w.backoff snap.quality now
  | .settle execution witness finalize completedAtMs now =>
    ∀ snap job judgmentId, w.phase = .judging snap job judgmentId →
      (terminalOf outside execution).valid = true ∧
        finalize (finalizationOf (terminalOf outside execution) judgmentId witness completedAtMs) =
          .ok true ∨
      InRange w.backoff snap.quality now

/-- No permit is out while no job runs. -/
def Settled (w : World) : Prop := w.phase.running = false → w.backoff.probeInFlight = false

/-- While no job runs, the next job gets in once no pause stands any longer. -/
def Admits (w : World) : Prop :=
  w.phase.running = false → ∀ now, (∀ u, w.backoff.pausedUntil = some u → u ≤ now) →
    (w.backoff.tryEnter now).1 = true

theorem Settled.admits {w : World} (h : Settled w) : Admits w := by
  intro hrunning now hover
  unfold Backoff.tryEnter
  cases hu : w.backoff.pausedUntil with
  | none => rfl
  | some u =>
    have hle := hover u hu
    have hnot : ¬ (decide (now < u) || w.backoff.probeInFlight) = true := by
      simp only [h hrunning, Bool.or_false, decide_eq_true_eq]
      omega
    dsimp only
    rw [if_neg hnot]

/-! ### The invariant -/

/-- The log tells the pause, and the job that it has let in holds the permit. -/
def Tells (b : Backoff) (log : List PauseEvent) : Prop :=
  pauseOf log = b.pausedUntil.map fun u => (u, if b.probeInFlight then 1 else 0)

structure PermitInv (w : World) (log : List PauseEvent) : Prop where
  held : w.backoff.probeInFlight = true → w.phase.running = true
  tells : Tells w.backoff log
  once : OnePerPause log

theorem permitInv_start : PermitInv {} [] where
  held h := by cases h
  tells := rfl
  once := onePerPause_nil

theorem probeInFlight_apply (b : Backoff) (m : Backoff.Move) :
    (b.apply m).probeInFlight = false := by
  cases m with
  | success => rfl
  | pause now cfg => rfl
  | failure now cfg =>
    simp only [Backoff.apply, Backoff.failure]
    split
    · rfl
    · rename_i htrips
      simp only [Backoff.trips, Bool.or_eq_true, not_or] at htrips
      simpa using htrips.1

/-- When and how long an operation pauses. -/
def Backoff.Move.clock : Backoff.Move → Option (EvalConfig × ℕ)
  | .success => none
  | .failure now cfg | .pause now cfg => some (cfg, now)

theorem pauseOf_paused (log : List PauseEvent) (o : Option ℕ) :
    pauseOf (log ++ o.toList.map .paused) = (o.map fun u => (u, 0)).or (pauseOf log) := by
  rw [pauseOf_append]
  cases o <;> rfl

/-- The log tells the pause after an operation, unless a pause is lost at the end of the clock. -/
theorem Tells.apply {b : Backoff} {log : List PauseEvent} (h : Tells b log) (m : Backoff.Move)
    (hrange : ∀ c, m.clock = some c → InRange b c.1 c.2) :
    Tells (b.apply m) (log ++ b.events m) := by
  -- a new pause, or none where none stood
  have hpause (cfg : EvalConfig) (now : ℕ) (hr : InRange b cfg now) :
      pauseOf (log ++ (checkedAddSecs now cfg.failureBackoffSecs).toList.map .paused) =
        (checkedAddSecs now cfg.failureBackoffSecs).map fun u => (u, 0) := by
    rw [pauseOf_paused]
    cases hnew : checkedAddSecs now cfg.failureBackoffSecs with
    | some u => rfl
    | none =>
      have hnone : b.pausedUntil = none := by
        by_contra hsome
        have hfits := hr (Option.isSome_iff_ne_none.mpr hsome)
        rw [hnew] at hfits
        cases hfits
      rw [h, hnone]
      rfl
  cases m with
  | success =>
    rw [Tells, pauseOf_append]
    rfl
  | pause now cfg => exact hpause cfg now (hrange _ rfl)
  | failure now cfg =>
    simp only [Backoff.apply, Backoff.failure, Backoff.events]
    split
    · exact hpause cfg now (hrange _ rfl)
    · rw [List.append_nil]
      exact h

theorem not_admitted_events (b : Backoff) (m : Backoff.Move) (now : ℕ) :
    PauseEvent.admitted now ∉ b.events m := by
  cases m with
  | success => simp [Backoff.events]
  | pause now cfg => simp [Backoff.events]
  | failure now cfg =>
    simp only [Backoff.events]
    split <;> simp

/-- An operation in a critical section: the permit is back whatever the worker does next. -/
theorem PermitInv.move {w : World} {log : List PauseEvent} (h : PermitInv w log) {m : Option Backoff.Move}
    (hrange : ∀ m', m = some m' → ∀ c, m'.clock = some c → InRange w.backoff c.1 c.2)
    {phase : Phase} (hphase : m = none → w.backoff.probeInFlight = true → phase.running = true)
    (stats : Stats) :
    PermitInv { backoff := w.move m, phase := phase, stats := stats } (log ++ w.moveEvents m) := by
  cases m with
  | none =>
    refine ⟨hphase rfl, ?_, ?_⟩
    · simpa [World.moveEvents, World.move] using h.tells
    · simpa [World.moveEvents] using h.once
  | some m =>
    refine ⟨fun hprobe => ?_, h.tells.apply m (hrange m rfl),
      h.once.append fun now => not_admitted_events _ m now⟩
    exact absurd hprobe (by simp [World.move, probeInFlight_apply])

theorem tryEnter_cases (b : Backoff) (now : ℕ) (h : (b.tryEnter now).1 = true) :
    (b.pausedUntil = none ∧ (b.tryEnter now).2 = b) ∨
      ∃ u, b.pausedUntil = some u ∧ u ≤ now ∧ b.probeInFlight = false ∧
        (b.tryEnter now).2 = { b with probeInFlight := true } := by
  unfold Backoff.tryEnter at h ⊢
  cases hu : b.pausedUntil with
  | none => exact .inl ⟨rfl, rfl⟩
  | some u =>
    simp only [hu] at h ⊢
    by_cases hwait : (decide (now < u) || b.probeInFlight) = true
    · rw [if_pos hwait] at h
      cases h
    · simp only [Bool.or_eq_true, decide_eq_true_eq, not_or, Bool.not_eq_true] at hwait
      refine .inr ⟨u, rfl, by omega, hwait.2, ?_⟩
      rw [if_neg (by simp [hwait])]

/-- A job gets in. -/
theorem PermitInv.enter {w : World} {log : List PauseEvent} (h : PermitInv w log)
    {snap : JudgeSnapshot} {job : QualityJob} {now : ℕ}
    (henter : (w.backoff.tryEnter now).1 = true) :
    PermitInv { w with backoff := (w.backoff.tryEnter now).2, phase := .entered snap job }
      (log ++ [.admitted now]) := by
  have htells := h.tells
  unfold Tells at htells
  rcases tryEnter_cases w.backoff now henter with ⟨hnone, hsame⟩ | ⟨u, hu, hle, hprobe, hnext⟩
  · rw [hnone] at htells
    refine ⟨fun _ => rfl, ?_, h.once.concat ?_⟩
    · rw [hsame, Tells, pauseOf_append, htells, hnone]
      rfl
    · intro _ _ p hp
      rw [htells] at hp
      cases hp
  · rw [hu, hprobe] at htells
    refine ⟨fun _ => rfl, ?_, h.once.concat ?_⟩
    · rw [hnext, Tells, pauseOf_append, htells]
      simp [nextPause, hu]
    · rintro _ ⟨⟩ p hp
      rw [htells] at hp
      cases hp
      exact ⟨hle, rfl⟩

theorem clock_settle {cfg : EvalConfig} {stats : Stats} {terminal : Terminal}
    {finalized : Except StoreError Bool} {now : ℕ} {c : EvalConfig × ℕ}
    (h : (settle cfg stats terminal finalized now).1.clock = some c) :
    c = (cfg, now) ∧ ¬ (terminal.valid = true ∧ finalized = .ok true) := by
  unfold settle at h
  split at h
  · by_cases hvalid : terminal.valid = true
    · rw [if_pos hvalid] at h
      cases h
    · rw [if_neg hvalid] at h
      exact ⟨(Option.some.inj h).symm, fun hboth => hvalid hboth.1⟩
  · rename_i hne
    exact ⟨(Option.some.inj h).symm, fun hboth => hne hboth.2⟩

theorem beginMove_eq_some {cfg : EvalConfig} {b : Backoff} {stats : Stats} {s : Sampling} {now : ℕ}
    {m : Backoff.Move} (h : (beginMove cfg b stats s now).1 = some m) :
    m = .pause now cfg ∧ cfg.enabled = true ∧ s.eligible = true ∧
      ∃ e, s.budget = some (.error e) := by
  unfold beginMove at h
  by_cases hskip : (!cfg.enabled || !s.eligible || b.isOpen now) = true
  · simp [hskip] at h
  · rw [if_neg hskip] at h
    simp only [Bool.or_eq_true, Bool.not_eq_true', not_or, Bool.not_eq_false] at hskip
    cases hbudget : s.budget with
    | none => simp [hbudget] at h
    | some answer =>
      cases answer with
      | error e =>
        simp only [hbudget, Option.some.injEq] at h
        exact ⟨h.symm, hskip.1.1, hskip.1.2, e, rfl⟩
      | ok budget =>
        simp only [hbudget] at h
        split at h <;> cases h

theorem launch_move {outside : Outside} {snap : JudgeSnapshot} {job : QualityJob} {stats : Stats}
    {requestId judgmentId : String} {reserve : Option ReserveFn} {createdAtMs : ℤ} {now : ℕ}
    {m : Backoff.Move}
    (h : (launch outside snap job stats requestId judgmentId reserve createdAtMs now).2.1 =
      some m) : m = .pause now snap.quality := by
  unfold launch at h
  split at h
  · cases h
  · cases h
  · split at h
    · cases h
    · split at h
      · cases h
      · cases h
      · cases h
      · cases h
        rfl

/-- A job that reaches the judge or a store error keeps the permit or gives it back. -/
theorem Reaches.launch {outside : Outside} {snap : JudgeSnapshot} {job : QualityJob}
    {requestId judgmentId : String} {reserve : Option ReserveFn} {createdAtMs : ℤ}
    (h : Reaches outside snap job requestId judgmentId reserve createdAtMs) (stats : Stats) {now : ℕ}
    (hnone : (launch outside snap job stats requestId judgmentId reserve createdAtMs now).2.1 =
      none) :
    (launch outside snap job stats requestId judgmentId reserve createdAtMs now).1.running =
      true := by
  obtain ⟨cost, fn, hcost, rfl, hanswer⟩ := h
  unfold Quality.launch at hnone ⊢
  rw [hcost] at hnone ⊢
  dsimp only at hnone hanswer ⊢
  rcases hanswer with hanswer | ⟨e, hanswer⟩
  · rw [hanswer]
    rfl
  · rw [hanswer] at hnone
    cases hnone

/-- **One critical section** under the condition keeps the invariant. -/
theorem PermitInv.step {outside : Outside} {w : World} {log : List PauseEvent} (h : PermitInv w log)
    {i : Input} (hok : Ok outside w i) :
    PermitInv (w.step outside i).1 (log ++ (w.step outside i).2) := by
  have hstay : PermitInv w (log ++ []) := by rwa [List.append_nil]
  cases i with
  | begin' cfg s now =>
    have hmove := @PermitInv.move w log h (beginMove cfg w.backoff w.stats s now).1 ?_ w.phase
      (fun _ => h.held) (beginMove cfg w.backoff w.stats s now).2
    · exact hmove
    · intro m hm c hc
      obtain ⟨rfl, henabled, heligible, herror⟩ := beginMove_eq_some hm
      cases hc
      exact hok henabled heligible herror
  | enter snap job now =>
    simp only [World.step]
    split
    · split
      · exact ⟨h.held, by simpa using h.tells, by simpa using h.once⟩
      · split
        · rename_i henter
          exact h.enter henter
        · exact ⟨h.held, by simpa using h.tells, by simpa using h.once⟩
    · exact hstay
  | launch requestId judgmentId reserve createdAtMs now =>
    simp only [World.step]
    split
    · rename_i snap job hphase
      obtain ⟨hreach, hrange⟩ := hok snap job hphase
      refine h.move ?_ (fun hm hprobe => (hreach hprobe).launch w.stats hm) _
      intro m hm c hc
      rw [launch_move hm] at hc
      cases hc
      exact hrange
    · exact hstay
  | settle execution witness finalize completedAtMs now =>
    simp only [World.step]
    split
    · rename_i snap job judgmentId hphase
      refine h.move ?_ (fun hm => by cases hm) _
      intro m hm c hc
      cases hm
      obtain ⟨rfl, hnot⟩ := clock_settle hc
      exact (hok snap job judgmentId hphase).resolve_left hnot
    · exact hstay

/-- **The worker cannot wedge itself.**  In every run whose steps meet the condition, no permit is
out while no job runs, the next job after a pause gets in, and each pause lets in one job. -/
theorem never_wedged (outside : Outside) (inputs : List Input)
    (hok : ∀ v ∈ Machine.visited (fun w i => (w.step outside i).1) ({} : World) inputs,
      Ok outside v.1 v.2) :
    Settled (Machine.run (World.step outside) {} inputs).1 ∧
      Admits (Machine.run (World.step outside) {} inputs).1 ∧
      OnePerPause (Machine.run (World.step outside) {} inputs).2 := by
  let next (w : World) (i : Input) : World := (w.step outside i).1
  let I (w : World) (log : List PauseEvent) (inputs : List Input) : Prop :=
    PermitInv w log ∧ ∀ v ∈ Machine.visited next w inputs, Ok outside v.1 v.2
  have hkeep : ∀ w log i inputs, I w log (i :: inputs) →
      I (w.step outside i).1 (log ++ (w.step outside i).2) inputs := by
    rintro w log i inputs ⟨hw, hall⟩
    exact ⟨hw.step (hall (w, i) List.mem_cons_self),
      fun v hv => hall v (List.mem_cons_of_mem _ hv)⟩
  have hinv : I _ _ _ := Machine.run_history hkeep ⟨permitInv_start, hok⟩
  have hsettled : Settled (Machine.run (World.step outside) {} inputs).1 := by
    intro hrunning
    by_contra hprobe
    have hheld := hinv.1.held (by simpa using hprobe)
    rw [hrunning] at hheld
    cases hheld
  exact ⟨hsettled, hsettled.admits, hinv.1.once⟩

/-! ### A probe over its budget -/

/-- The digest of one judge, and texts that need no escapes. -/
def plainOutside : Outside where
  sha256Hex := fun parts =>
    if parts = ["quality-v1", "judge/a"] then
      "5f6fb59d9ab1eb25063f289e812bea64c52e151a80efa063b9f5e2988d05bb43"
    else ""
  material := fun rubric request response =>
    "\x7b\"rubric\":\"" ++ rubric ++ "\",\"request\":\"" ++ request ++
      "\",\"response\":\"" ++ response ++ "\"\x7d"
  formatBytes := fun _ => 22
  fromStr := fun _ => none

def plainConfig : EvalConfig where
  enabled := true
  bodyAllowedTargets := ["judge/a"]
  minInputChars := 1
  minOutputChars := 1

def plainSnapshot : JudgeSnapshot where
  revision := 1
  quality := plainConfig
  costProfile := fun _ _ => some { inputPerMtok := Fp.ofNat 2, outputPerMtok := Fp.ofNat 4 }

def plainJob : QualityJob where
  servedRequestId := "req"
  servedTargetId := "served/echo"
  class' := "any"
  sampleRevision := 1
  evaluatorId :=
    "quality-v1:5f6fb59d9ab1eb25063f289e812bea64c52e151a80efa063b9f5e2988d05bb43"
  input := { bytes := [104, 105], invalid := false }
  output := { bytes := [111, 107], invalid := false }

/-- A sample that meets a failing store. -/
def lockedSample : Input :=
  .begin' plainConfig
    { eligible := true, budget := some (.error ⟨"locked"⟩), slotFree := true, inputChars := some 9 } 0

/-- When the pause of the sample is over, an hour later. -/
def pauseEnd : ℕ := 3600000000000

def probeEnter : Input := .enter plainSnapshot plainJob pauseEnd

/-- The job's reservation, with the answer of the store. -/
def probeLaunch (answer : Except StoreError ReserveOutcome) : Input :=
  .launch "jr" "qj" (some fun _ _ _ _ => answer) 0 pauseEnd

def probeRun (answer : Except StoreError ReserveOutcome) : List Input :=
  [lockedSample, probeEnter, probeLaunch answer]

/-- The worker in the pause. -/
def pausedWorld : World where
  backoff := ⟨3, some pauseEnd, false⟩
  stats := { failed := 1 }

/-- The worker with the permit of the probe. -/
def probing : World where
  backoff := ⟨3, some pauseEnd, true⟩
  phase := .entered plainSnapshot plainJob
  stats := { failed := 1 }

/-- The worker when it has kept the permit. -/
def wedged : World where
  backoff := ⟨3, some pauseEnd, true⟩
  stats := { failed := 1, budgetSkipped := 1 }

theorem jobCost_plain : ∃ cost,
    jobCost plainOutside plainSnapshot plainJob "jr" = some (some cost) := by
  have hinput : plainJob.input.asStr = some "hi" := by decide +kernel
  have houtput : plainJob.output.asStr = some "ok" := by decide +kernel
  have hprices : allowedPrices plainSnapshot plainSnapshot.quality.bodyAllowedTargets =
      some [⟨Fp.ofNat 2, Fp.ofNat 4⟩] := by decide +kernel
  have hpriced : CostProfile.priced ⟨Fp.ofNat 2, Fp.ofNat 4⟩ = true := by decide +kernel
  have hestimate (bytes tokens : ℕ) :
      ∃ cost, estimateCostMicros bytes tokens [⟨Fp.ofNat 2, Fp.ofNat 4⟩] = some cost := by
    unfold estimateCostMicros
    rw [if_neg (by simp [hpriced])]
    exact ⟨_, rfl⟩
  obtain ⟨cost, hcost⟩ := hestimate
    (promptBytes plainOutside (buildJudgeRequest plainOutside "jr" plainSnapshot.quality "hi" "ok"))
    plainSnapshot.quality.judgeMaxOutputTokens
  exact ⟨cost, by simp only [jobCost, hinput, houtput, hprices, Option.bind_some, Option.map_some,
    hcost]⟩

theorem step_lockedSample : (World.step plainOutside {} lockedSample).1 = pausedWorld := by
  have hpause : checkedAddSecs 0 3600 = some pauseEnd := by decide
  simp [World.step, lockedSample, beginMove, Backoff.isOpen, World.move, Backoff.apply,
    Backoff.pause, hpause, pausedWorld, plainConfig]

theorem step_probeEnter : (World.step plainOutside pausedWorld probeEnter).1 = probing := by
  have hmatch : jobMatchesConfig plainOutside plainJob plainSnapshot.quality = true := by
    decide +kernel
  simp only [World.step, probeEnter, pausedWorld, hmatch]
  rfl

theorem step_probeLaunch :
    (World.step plainOutside probing (probeLaunch (.ok (.budgetExceeded ⟨60, 0⟩)))).1 = wedged := by
  obtain ⟨cost, hcost⟩ := jobCost_plain
  simp only [World.step, probeLaunch, probing, launch, hcost]
  rfl

theorem visited_probeRun (answer : Except StoreError ReserveOutcome) :
    Machine.visited (fun w i => (w.step plainOutside i).1) ({} : World) (probeRun answer) =
      [({}, lockedSample), (pausedWorld, probeEnter), (probing, probeLaunch answer)] := by
  simp only [probeRun, Machine.visited, step_lockedSample, step_probeEnter]

theorem never_wedged_probe :
    Settled (Machine.run (World.step plainOutside) {} (probeRun (.error ⟨"locked"⟩))).1 ∧
      Admits (Machine.run (World.step plainOutside) {} (probeRun (.error ⟨"locked"⟩))).1 ∧
      OnePerPause (Machine.run (World.step plainOutside) {} (probeRun (.error ⟨"locked"⟩))).2 := by
  refine never_wedged plainOutside _ fun v hv => ?_
  rw [visited_probeRun] at hv
  simp only [List.mem_cons, List.not_mem_nil, or_false] at hv
  rcases hv with rfl | rfl | rfl
  · intro _ _ _ hstands
    cases hstands
  · trivial
  · rintro snap job ⟨⟩
    obtain ⟨cost, hcost⟩ := jobCost_plain
    exact ⟨fun _ => ⟨cost, _, hcost, rfl, .inr ⟨_, rfl⟩⟩, fun _ => by decide⟩

/-- A probe that the store refuses for its budget keeps the permit, and no job ever gets in. -/
theorem refused_probe_wedges :
    let w := (Machine.run (World.step plainOutside) {}
      (probeRun (.ok (.budgetExceeded ⟨60, 0⟩)))).1
    ¬ Settled w ∧ ∀ now, (w.backoff.tryEnter now).1 = false := by
  have hend : (Machine.run (World.step plainOutside) {}
      (probeRun (.ok (.budgetExceeded ⟨60, 0⟩)))).1 = wedged := by
    rw [Machine.run_fst]
    simp only [probeRun, List.foldl_cons, List.foldl_nil, step_lockedSample, step_probeEnter,
      step_probeLaunch]
  dsimp only
  rw [hend]
  refine ⟨fun h => absurd (h rfl) (by decide), fun now => ?_⟩
  simp [Backoff.tryEnter, wedged]

end Quality

end Switchback
