import Mathlib.Data.Prod.Lex
import Switchback.Lib.SortedRing
import Switchback.Quality.Config
import Switchback.Scorecard.Neutral

/-!
# The scorecard with its quality rings

An entry also keeps the judgments of its target, by one evaluator, sorted by their creation times.
A read of an entry repairs it: it stores the reset of a quiet window and removes the judgments that
have expired.
-/

namespace Switchback

open Lib

/-! ### Judgments -/

/-- One scored judgment. -/
structure QualitySample where
  judgmentId : String
  ts : ℕ
  createdAtMs : ℤ
  scoreNorm : F64
  deriving DecidableEq

namespace QualitySample

/-- By creation time, and then by id. -/
def key (s : QualitySample) : ℤ ×ₗ String := toLex (s.createdAtMs, s.judgmentId)

theorem judgmentId_of_key_eq (s s' : QualitySample) (h : s.key = s'.key) :
    s.judgmentId = s'.judgmentId := by
  unfold key at h
  rw [toLex_inj, Prod.mk.injEq] at h
  exact h.2

def isLive (now ttl : ℕ) (s : QualitySample) : Bool := decide (now - s.ts ≤ ttl)

theorem isLive_of_le {now now' ttl ttl' : ℕ} {s : QualitySample} (hnow : now ≤ now')
    (httl : ttl' ≤ ttl) (h : s.isLive now' ttl' = true) : s.isLive now ttl = true := by
  unfold isLive at *
  rw [decide_eq_true_iff] at *
  omega

end QualitySample

/-- The judgments of an entry, each once. -/
structure QualityRing where
  samples : List QualitySample
  nodup : (samples.map QualitySample.judgmentId).Nodup

namespace QualityRing

def empty : QualityRing := ⟨[], List.nodup_nil⟩

def push (ring : QualityRing) (s : QualitySample) (maxSamples : ℕ) : QualityRing where
  samples := SortedRing.push QualitySample.judgmentId QualitySample.key maxSamples ring.samples s
  nodup := SortedRing.push_nodup ring.nodup maxSamples s

/-- The judgments within the TTL. -/
def live (ring : QualityRing) (now ttl : ℕ) : List QualitySample :=
  ring.samples.filter (QualitySample.isLive now ttl)

def prune (ring : QualityRing) (now ttl : ℕ) : QualityRing where
  samples := ring.live now ttl
  nodup := SortedRing.filter_nodup ring.nodup _

/-- Does a push give up the expired judgments first? -/
def ExpiredFirst (ring : QualityRing) (s : QualitySample) (maxSamples now ttl : ℕ) : Prop :=
  SortedRing.PushGivesUpFirst QualitySample.judgmentId QualitySample.key
    (QualitySample.isLive now ttl) maxSamples ring.samples s

end QualityRing

/-- A finite score between zero and one. -/
def QualitySample.isScored (s : QualitySample) : Bool :=
  s.scoreNorm.isFinite && Fp.le Fp.zero s.scoreNorm && Fp.le s.scoreNorm (Fp.ofNat 1)

structure QualityStats where
  ewma : F64
  samples : ℕ
  ageSecs : ℕ

/-- The moving average of the scored judgments in the order of their creation. -/
def qualityStats (live : List QualitySample) (now : ℕ) (alpha : F64) : Option QualityStats :=
  if !(alpha.isFinite && Fp.lt Fp.zero alpha && Fp.le alpha (Fp.ofNat 1)) then none
  else
    let live := Runs.sortOn QualitySample.key (live.filter QualitySample.isScored)
    match live, live.getLast? with
    | first :: rest, some newest =>
        some
          { ewma := rest.foldl (fun ewma s => alpha * s.scoreNorm + (Fp.ofNat 1 - alpha) * ewma)
              first.scoreNorm
            samples := live.length
            ageSecs := (now - newest.ts) / 10 ^ 9 }
    | _, _ => none

/-- The judgments of an entry and their evaluator. -/
structure QualityState where
  evaluatorId : Option String := none
  ring : QualityRing := .empty

/-! ### The scorecard -/

/-- The entries by key, with their judgments. -/
structure LiveScorecard where
  outcomes : Scorecard
  quality : ScorecardKey → QualityState

namespace LiveScorecard

def new : LiveScorecard := ⟨.new, fun _ => {}⟩

def setQuality (sc : LiveScorecard) (key : ScorecardKey) (q : QualityState) : LiveScorecard :=
  { sc with quality := Function.update sc.quality key q }

/-- Mark an entry for the next flush. -/
def markDirty (sc : LiveScorecard) (key : ScorecardKey) (e : Entry) (changed : Bool) :
    LiveScorecard :=
  { sc with outcomes := sc.outcomes.set key { e with dirty := e.dirty || changed } }

def project (cfg : ScorecardConfig) (sc : LiveScorecard) (key : ScorecardKey) (now : ℕ) :
    Option OutcomeSignal × LiveScorecard :=
  let (signal, outcomes) := sc.outcomes.project cfg key now
  (signal, { sc with outcomes := outcomes })

def record (cfg : ScorecardConfig) (sc : LiveScorecard) (key : ScorecardKey) (seedPrior : Prior)
    (s : Sample) : LiveScorecard :=
  { sc with outcomes := sc.outcomes.record cfg key seedPrior s }

/-- The read of the judgments; it removes the expired ones. -/
def projectQuality (cfg : ScorecardConfig) (qualityCfg : Quality.EvalConfig) (sc : LiveScorecard)
    (key : ScorecardKey) (evaluatorId : String) (now : ℕ) : Option QualitySignal × LiveScorecard :=
  if !cfg.enabled || !qualityCfg.enabled then (none, sc)
  else
    match sc.outcomes.entries key with
    | none => (none, sc)
    | some e =>
        let q := sc.quality key
        if q.evaluatorId ≠ some evaluatorId then (none, sc)
        else
          let ring := q.ring.prune now (ttlNanos cfg)
          let changed := ring.samples.length != q.ring.samples.length
          let sc := (sc.setQuality key { q with ring := ring }).markDirty key e changed
          ((qualityStats (ring.live now (ttlNanos cfg)) now qualityCfg.ewmaAlpha).map fun stats =>
              { ewma := stats.ewma, samples := stats.samples, ageSecs := stats.ageSecs,
                evaluatorId := evaluatorId },
            sc)

/-- Is the judgment one that is recorded? -/
def accepts (cfg : ScorecardConfig) (qualityCfg : Quality.EvalConfig) (evaluatorId : String)
    (s : QualitySample) : Bool :=
  cfg.enabled && qualityCfg.enabled && Text.trim evaluatorId != "" && Text.trim s.judgmentId != "" &&
    decide (0 ≤ s.createdAtMs) && s.isScored

/-- The state that a judgment by an evaluator is recorded in; another evaluator starts over. -/
def ofEvaluator (sc : LiveScorecard) (key : ScorecardKey) (evaluatorId : String) : QualityState :=
  if (sc.quality key).evaluatorId = some evaluatorId then sc.quality key
  else { evaluatorId := some evaluatorId }

def recordQuality (cfg : ScorecardConfig) (qualityCfg : Quality.EvalConfig) (sc : LiveScorecard)
    (key : ScorecardKey) (evaluatorId : String) (s : QualitySample) : LiveScorecard :=
  if accepts cfg qualityCfg evaluatorId s then
    let e := sc.outcomes.getOrCreate key (Prior.fromConfig cfg)
    let q := sc.ofEvaluator key evaluatorId
    (sc.setQuality key { q with ring := q.ring.push s cfg.window.maxSamples }).markDirty key e true
  else sc

/-- The background flush: the dirty entries are pruned and no longer dirty.  The rows it returns are
not read back while the process runs. -/
def flush (cfg : ScorecardConfig) (sc : LiveScorecard) (now : ℕ) : LiveScorecard where
  outcomes := ⟨fun key => (sc.outcomes.entries key).map fun e => { e with dirty := false }⟩
  quality := fun key =>
    if (sc.outcomes.entries key).any Entry.dirty then
      { sc.quality key with ring := (sc.quality key).ring.prune now (ttlNanos cfg) }
    else sc.quality key

end LiveScorecard

/-! ### What routing will read -/

/-- The entries show routing the same from time `now` on. -/
structure Entry.Alike (ttl now : ℕ) (e e' : Entry) : Prop where
  ring : e.ring = e'.ring
  prior : e.prior = e'.prior
  hydrated : e.hydrated = e'.hydrated
  state : (e.resetIfTtlLapsed (windowStats e.ring e.prior now ttl)).hysteresis =
    (e'.resetIfTtlLapsed (windowStats e'.ring e'.prior now ttl)).hysteresis

structure QualityState.Alike (ttl now : ℕ) (q q' : QualityState) : Prop where
  evaluatorId : q.evaluatorId = q'.evaluatorId
  live : q.ring.live now ttl = q'.ring.live now ttl

namespace Entry

variable {ttl ttl' now now' : ℕ} {e e' : Entry}

theorem Alike.refl (ttl now : ℕ) (e : Entry) : Alike ttl now e e := ⟨rfl, rfl, rfl, rfl⟩

theorem nScoreable_eq_zero_of_later (hnow : now ≤ now') (httl : ttl' ≤ ttl) (ring : List Sample)
    (prior : Prior) (h : (windowStats ring prior now ttl).nScoreable = 0) :
    (windowStats ring prior now' ttl').nScoreable = 0 := by
  rw [windowStats_nScoreable, List.countP_eq_zero] at h ⊢
  intro s hs hcounts
  refine h s hs ?_
  unfold countsAt isLive at hcounts ⊢
  simp only [Bool.and_eq_true, decide_eq_true_eq] at hcounts ⊢
  exact ⟨hcounts.1, by omega⟩

/-- Time passes and the TTL does not grow. -/
theorem Alike.later (h : Alike ttl now e e') (hnow : now ≤ now') (httl : ttl' ≤ ttl) :
    Alike ttl' now' e e' := by
  refine ⟨h.ring, h.prior, h.hydrated, ?_⟩
  have hstate := h.state
  rw [← h.ring, ← h.prior] at hstate ⊢
  by_cases hquiet : (windowStats e.ring e.prior now' ttl').nScoreable = 0
  · rw [hysteresis_reset_of_eq hquiet, hysteresis_reset_of_eq hquiet]
  · -- a window that is not quiet later is not quiet now, so nothing is reset
    have hnow' : (windowStats e.ring e.prior now ttl).nScoreable ≠ 0 :=
      fun hzero => hquiet (nScoreable_eq_zero_of_later hnow httl _ _ hzero)
    rw [resetIfTtlLapsed_of_ne hnow', resetIfTtlLapsed_of_ne hnow'] at hstate
    exact hysteresis_reset_congr hstate _

theorem alike_reset (ttl now : ℕ) (e : Entry) :
    Alike ttl now (e.resetIfTtlLapsed (windowStats e.ring e.prior now ttl)) e := by
  refine ⟨resetIfTtlLapsed_ring e _, resetIfTtlLapsed_prior e _, resetIfTtlLapsed_hydrated e _, ?_⟩
  rw [resetIfTtlLapsed_ring, resetIfTtlLapsed_prior]
  exact hysteresis_reset_reset e _

theorem Alike.symm (h : Alike ttl now e e') : Alike ttl now e' e :=
  ⟨h.ring.symm, h.prior.symm, h.hydrated.symm, h.state.symm⟩

theorem Alike.trans {e'' : Entry} (h : Alike ttl now e e') (h' : Alike ttl now e' e'') :
    Alike ttl now e e'' :=
  ⟨h.ring.trans h'.ring, h.prior.trans h'.prior, h.hydrated.trans h'.hydrated,
    h.state.trans h'.state⟩

theorem Alike.project {cfg : ScorecardConfig} (h : Alike (ttlNanos cfg) now e e') :
    (e.project cfg now).1 = (e'.project cfg now).1 ∧
      Alike (ttlNanos cfg) now (e.project cfg now).2 (e'.project cfg now).2 := by
  have hstats : e.stats cfg now = e'.stats cfg now := by
    unfold stats
    rw [h.ring, h.prior]
  constructor
  · have hstate := h.state
    simp only [hysteresis, Prod.mk.injEq] at hstate
    obtain ⟨htier, htrigger, hfailures, -⟩ := hstate
    change (e.resetIfTtlLapsed (e.stats cfg now)).tier =
      (e'.resetIfTtlLapsed (e'.stats cfg now)).tier at htier
    change (e.resetIfTtlLapsed (e.stats cfg now)).demoteTrigger =
      (e'.resetIfTtlLapsed (e'.stats cfg now)).demoteTrigger at htrigger
    change (e.resetIfTtlLapsed (e.stats cfg now)).consecutiveFailures =
      (e'.resetIfTtlLapsed (e'.stats cfg now)).consecutiveFailures at hfailures
    rw [hstats] at htier htrigger hfailures
    unfold Entry.project
    dsimp only
    simp only [resetIfTtlLapsed_hydrated, htier, htrigger, hfailures, h.hydrated, hstats]
    split_ifs <;> rfl
  · rw [project_snd, project_snd]
    exact ((alike_reset _ now e).trans h).trans (alike_reset _ now e').symm

/-- The same sample, recorded under a TTL that is no greater. -/
theorem Alike.record {cfg : ScorecardConfig} {s : Sample} (h : Alike ttl s.ts e e')
    (httl : ttlNanos cfg ≤ ttl) : Alike ttl s.ts (e.record cfg s) (e'.record cfg s) := by
  obtain ⟨hring, hprior, hhydrated⟩ := record_frame cfg e s
  obtain ⟨hring', hprior', hhydrated'⟩ := record_frame cfg e' s
  have hsame : (e.record cfg s).ring = (e'.record cfg s).ring := by rw [hring, hring', h.ring]
  have hsame' : (e.record cfg s).prior = (e'.record cfg s).prior := by
    rw [hprior, hprior', h.prior]
  refine ⟨hsame, hsame', by rw [hhydrated, hhydrated', h.hydrated], ?_⟩
  rw [hsame, hsame']
  refine hysteresis_reset_congr ?_ _
  have hstats : (e.record cfg s).stats cfg s.ts = (e'.record cfg s).stats cfg s.ts := by
    unfold stats
    rw [hsame, hsame']
  rw [record_hysteresis, record_hysteresis, hstats]
  exact hysteresis_step_congr (h.later (Nat.le_refl _) httl).state _ _ _ _

/-- The dirty flag is not read. -/
theorem alike_dirty (ttl now : ℕ) (e : Entry) (dirty : Bool) :
    Alike ttl now { e with dirty := dirty } e := by
  have hsame : ({ e with dirty := dirty } : Entry).hysteresis = e.hysteresis := rfl
  exact ⟨rfl, rfl, rfl, hysteresis_reset_congr hsame _⟩

end Entry

namespace QualityState

variable {ttl ttl' now now' : ℕ} {q q' : QualityState}

theorem Alike.refl (ttl now : ℕ) (q : QualityState) : Alike ttl now q q := ⟨rfl, rfl⟩

theorem Alike.symm (h : Alike ttl now q q') : Alike ttl now q' q :=
  ⟨h.evaluatorId.symm, h.live.symm⟩

theorem Alike.trans {q'' : QualityState} (h : Alike ttl now q q') (h' : Alike ttl now q' q'') :
    Alike ttl now q q'' :=
  ⟨h.evaluatorId.trans h'.evaluatorId, h.live.trans h'.live⟩

theorem live_live (hnow : now ≤ now') (httl : ttl' ≤ ttl) (ring : QualityRing) :
    (ring.prune now ttl).live now' ttl' = ring.live now' ttl' := by
  unfold QualityRing.prune QualityRing.live
  rw [List.filter_filter]
  refine List.filter_congr fun s _ => ?_
  by_cases hs : s.isLive now' ttl' = true
  · rw [hs, QualitySample.isLive_of_le hnow httl hs, Bool.and_true]
  · rw [Bool.eq_false_iff.2 hs, Bool.false_and]

theorem Alike.later (h : Alike ttl now q q') (hnow : now ≤ now') (httl : ttl' ≤ ttl) :
    Alike ttl' now' q q' := by
  refine ⟨h.evaluatorId, ?_⟩
  rw [← live_live hnow httl, ← live_live hnow httl q'.ring]
  have hprune : q.ring.prune now ttl = q'.ring.prune now ttl := by
    unfold QualityRing.prune
    simp only [h.live]
  rw [hprune]

theorem alike_prune (ttl now : ℕ) (q : QualityState) :
    Alike ttl now { q with ring := q.ring.prune now ttl } q :=
  ⟨rfl, live_live (Nat.le_refl now) (Nat.le_refl ttl) q.ring⟩

theorem Alike.push (h : Alike ttl now q q') {s : QualitySample} {cap : ℕ}
    (hs : s.isLive now ttl = true) (hfirst : q.ring.ExpiredFirst s cap now ttl)
    (hfirst' : q'.ring.ExpiredFirst s cap now ttl) :
    Alike ttl now { q with ring := q.ring.push s cap } { q' with ring := q'.ring.push s cap } :=
  ⟨h.evaluatorId, SortedRing.filter_push_eq QualitySample.judgmentId_of_key_eq q.ring.nodup
    q'.ring.nodup h.live hs hfirst hfirst'⟩

end QualityState

/-! ### Scorecards -/

namespace LiveScorecard

/-- The scorecards show routing the same from time `now` on. -/
structure Alike (ttl now : ℕ) (sc sc' : LiveScorecard) : Prop where
  entries : ∀ key, Option.Rel (Entry.Alike ttl now) (sc.outcomes.entries key)
    (sc'.outcomes.entries key)
  quality : ∀ key, QualityState.Alike ttl now (sc.quality key) (sc'.quality key)

variable {ttl ttl' now now' : ℕ} {sc sc' : LiveScorecard}

theorem Alike.refl (ttl now : ℕ) (sc : LiveScorecard) : Alike ttl now sc sc := by
  refine ⟨fun key => ?_, fun key => QualityState.Alike.refl ttl now _⟩
  cases sc.outcomes.entries key with
  | none => exact .none
  | some e => exact .some (Entry.Alike.refl ttl now e)

theorem Alike.symm (h : Alike ttl now sc sc') : Alike ttl now sc' sc := by
  refine ⟨fun key => ?_, fun key => (h.quality key).symm⟩
  have hkey := h.entries key
  revert hkey
  generalize sc.outcomes.entries key = o
  generalize sc'.outcomes.entries key = o'
  rintro (hab | _)
  · exact .some hab.symm
  · exact .none

theorem Alike.trans {sc'' : LiveScorecard} (h : Alike ttl now sc sc')
    (h' : Alike ttl now sc' sc'') : Alike ttl now sc sc'' := by
  refine ⟨fun key => ?_, fun key => (h.quality key).trans (h'.quality key)⟩
  have hkey := h.entries key
  have hkey' := h'.entries key
  revert hkey hkey'
  generalize sc.outcomes.entries key = o
  generalize sc'.outcomes.entries key = o'
  generalize sc''.outcomes.entries key = o''
  rintro (hab | _) hbc
  · cases hbc with
    | some hbc => exact .some (hab.trans hbc)
  · exact hbc

theorem Alike.later (h : Alike ttl now sc sc') (hnow : now ≤ now') (httl : ttl' ≤ ttl) :
    Alike ttl' now' sc sc' := by
  refine ⟨fun key => ?_, fun key => (h.quality key).later hnow httl⟩
  have hkey := h.entries key
  revert hkey
  generalize sc.outcomes.entries key = o
  generalize sc'.outcomes.entries key = o'
  rintro (hab | _)
  · exact .some (hab.later hnow httl)
  · exact .none

theorem alike_set {key : ScorecardKey} {e e' : Entry} (hget : sc.outcomes.entries key = some e')
    (he : Entry.Alike ttl now e e') :
    Alike ttl now { sc with outcomes := sc.outcomes.set key e } sc := by
  refine ⟨fun k => ?_, fun k => QualityState.Alike.refl ttl now _⟩
  show Option.Rel _ (Function.update sc.outcomes.entries key (some e) k) _
  by_cases hk : k = key
  · subst hk
    rw [Function.update_self, hget]
    exact .some he
  · rw [Function.update_of_ne hk]
    exact (Alike.refl ttl now sc).entries k

theorem alike_setQuality {key : ScorecardKey} {q : QualityState}
    (hq : QualityState.Alike ttl now q (sc.quality key)) :
    Alike ttl now (sc.setQuality key q) sc := by
  refine ⟨(Alike.refl ttl now sc).entries, fun k => ?_⟩
  show QualityState.Alike ttl now (Function.update sc.quality key q k) _
  by_cases hk : k = key
  · subst hk
    rw [Function.update_self]
    exact hq
  · rw [Function.update_of_ne hk]
    exact QualityState.Alike.refl ttl now _

section Reads

variable {cfg : ScorecardConfig} {qualityCfg : Quality.EvalConfig}

/-- **A read of the outcomes leaves the scorecard alike.** -/
theorem alike_project (cfg : ScorecardConfig) (sc : LiveScorecard) (key : ScorecardKey)
    (now : ℕ) : Alike (ttlNanos cfg) now (sc.project cfg key now).2 sc := by
  unfold project Scorecard.project
  by_cases hen : cfg.enabled = true
  · rw [if_pos hen]
    cases hget : sc.outcomes.entries key with
    | none => exact Alike.refl _ now sc
    | some e =>
      have hreset : (e.project cfg now).2 = e.resetIfTtlLapsed (e.stats cfg now) :=
        Entry.project_snd cfg e now
      exact alike_set hget (hreset ▸ Entry.alike_reset _ now e)
  · rw [if_neg hen]
    exact Alike.refl _ now sc

/-- **A read of the judgments leaves the scorecard alike.** -/
theorem alike_projectQuality (cfg : ScorecardConfig) (qualityCfg : Quality.EvalConfig)
    (sc : LiveScorecard) (key : ScorecardKey) (evaluatorId : String) (now : ℕ) :
    Alike (ttlNanos cfg) now (sc.projectQuality cfg qualityCfg key evaluatorId now).2 sc := by
  unfold projectQuality
  by_cases hen : (!cfg.enabled || !qualityCfg.enabled) = true
  · rw [if_pos hen]
    exact Alike.refl _ now sc
  rw [if_neg hen]
  cases hget : sc.outcomes.entries key with
  | none => exact Alike.refl _ now sc
  | some e =>
    dsimp only
    split_ifs with hid
    · exact Alike.refl _ now sc
    · have hq := alike_setQuality (QualityState.alike_prune (ttlNanos cfg) now (sc.quality key))
      refine Alike.trans (alike_set ?_ (Entry.alike_dirty _ now e _)) hq
      exact hget

theorem Alike.project_eq (h : Alike (ttlNanos cfg) now sc sc') (key : ScorecardKey) :
    (sc.project cfg key now).1 = (sc'.project cfg key now).1 := by
  unfold LiveScorecard.project Scorecard.project
  by_cases hen : cfg.enabled = true
  · rw [if_pos hen, if_pos hen]
    have hkey := h.entries key
    revert hkey
    generalize sc.outcomes.entries key = o
    generalize sc'.outcomes.entries key = o'
    rintro (hab | _)
    · exact hab.project.1
    · rfl
  · rw [if_neg hen, if_neg hen]

theorem Alike.projectQuality_eq (h : Alike (ttlNanos cfg) now sc sc') (key : ScorecardKey)
    (evaluatorId : String) :
    (sc.projectQuality cfg qualityCfg key evaluatorId now).1 =
      (sc'.projectQuality cfg qualityCfg key evaluatorId now).1 := by
  unfold LiveScorecard.projectQuality
  by_cases hen : (!cfg.enabled || !qualityCfg.enabled) = true
  · rw [if_pos hen, if_pos hen]
  rw [if_neg hen, if_neg hen]
  have hkey := h.entries key
  have hquality := h.quality key
  have hprune : (sc.quality key).ring.prune now (ttlNanos cfg) =
      (sc'.quality key).ring.prune now (ttlNanos cfg) := by
    unfold QualityRing.prune
    simp only [hquality.live]
  revert hkey
  generalize sc.outcomes.entries key = o
  generalize sc'.outcomes.entries key = o'
  rintro (hab | _)
  · dsimp only
    rw [← hquality.evaluatorId]
    split_ifs with hid
    · rfl
    · rw [hprune]
  · rfl

end Reads

/-! ### Writes -/

section Writes

variable {cfg : ScorecardConfig} {qualityCfg : Quality.EvalConfig}

/-- The same change of one key in both. -/
theorem Alike.set (h : Alike ttl now sc sc') {key : ScorecardKey} {e e' : Entry}
    (he : Entry.Alike ttl now e e') :
    Alike ttl now { sc with outcomes := sc.outcomes.set key e }
      { sc' with outcomes := sc'.outcomes.set key e' } := by
  refine ⟨fun k => ?_, h.quality⟩
  show Option.Rel _ (Function.update sc.outcomes.entries key (some e) k)
    (Function.update sc'.outcomes.entries key (some e') k)
  by_cases hk : k = key
  · subst hk
    rw [Function.update_self, Function.update_self]
    exact .some he
  · rw [Function.update_of_ne hk, Function.update_of_ne hk]
    exact h.entries k

theorem Alike.setQuality (h : Alike ttl now sc sc') {key : ScorecardKey} {q q' : QualityState}
    (hq : QualityState.Alike ttl now q q') :
    Alike ttl now (sc.setQuality key q) (sc'.setQuality key q') := by
  refine ⟨h.entries, fun k => ?_⟩
  show QualityState.Alike ttl now (Function.update sc.quality key q k)
    (Function.update sc'.quality key q' k)
  by_cases hk : k = key
  · subst hk
    rw [Function.update_self, Function.update_self]
    exact hq
  · rw [Function.update_of_ne hk, Function.update_of_ne hk]
    exact h.quality k

theorem Alike.getOrCreate (h : Alike ttl now sc sc') (key : ScorecardKey) (prior : Prior) :
    Entry.Alike ttl now (sc.outcomes.getOrCreate key prior)
      (sc'.outcomes.getOrCreate key prior) := by
  unfold Scorecard.getOrCreate
  have hkey := h.entries key
  revert hkey
  generalize sc.outcomes.entries key = o
  generalize sc'.outcomes.entries key = o'
  rintro (hab | _)
  · exact hab
  · exact Entry.Alike.refl ttl now _

theorem Alike.record {s : Sample} (h : Alike ttl s.ts sc sc') (httl : ttlNanos cfg ≤ ttl)
    (key : ScorecardKey) (prior : Prior) :
    Alike ttl s.ts (sc.record cfg key prior s) (sc'.record cfg key prior s) := by
  unfold LiveScorecard.record Scorecard.record
  by_cases hen : cfg.enabled = true
  · rw [if_pos hen, if_pos hen]
    exact h.set ((h.getOrCreate key prior).record httl)
  · rw [if_neg hen, if_neg hen]
    exact h

theorem Alike.ofEvaluator (h : Alike ttl now sc sc') (key : ScorecardKey) (evaluatorId : String) :
    QualityState.Alike ttl now (sc.ofEvaluator key evaluatorId)
      (sc'.ofEvaluator key evaluatorId) := by
  unfold LiveScorecard.ofEvaluator
  rw [(h.quality key).evaluatorId]
  split_ifs with hid
  · exact h.quality key
  · exact QualityState.Alike.refl ttl now _

/-- Does the ring of a key give up its expired judgments first when it records this one? -/
def ExpiredFirst (cfg : ScorecardConfig) (ttl : ℕ) (sc : LiveScorecard) (key : ScorecardKey)
    (evaluatorId : String) (s : QualitySample) : Prop :=
  (sc.ofEvaluator key evaluatorId).ring.ExpiredFirst s cfg.window.maxSamples s.ts ttl

theorem Alike.recordQuality {s : QualitySample} (h : Alike ttl s.ts sc sc')
    {key : ScorecardKey} {evaluatorId : String}
    (hfirst : accepts cfg qualityCfg evaluatorId s = true →
      sc.ExpiredFirst cfg ttl key evaluatorId s ∧ sc'.ExpiredFirst cfg ttl key evaluatorId s) :
    Alike ttl s.ts (sc.recordQuality cfg qualityCfg key evaluatorId s)
      (sc'.recordQuality cfg qualityCfg key evaluatorId s) := by
  unfold LiveScorecard.recordQuality
  by_cases hok : accepts cfg qualityCfg evaluatorId s = true
  · rw [if_pos hok, if_pos hok]
    have hs : s.isLive s.ts ttl = true := by simp [QualitySample.isLive]
    have hpush := (h.ofEvaluator key evaluatorId).push hs (hfirst hok).1 (hfirst hok).2
    have hq := @Alike.setQuality _ _ _ _ h key _ _ hpush
    have he := h.getOrCreate key (Prior.fromConfig cfg)
    exact hq.set (((Entry.alike_dirty _ _ _ _).trans he).trans (Entry.alike_dirty _ _ _ _).symm)
  · rw [if_neg hok, if_neg hok]
    exact h

theorem alike_flush (cfg : ScorecardConfig) (sc : LiveScorecard) (now : ℕ) :
    Alike (ttlNanos cfg) now (sc.flush cfg now) sc := by
  constructor
  · intro key
    show Option.Rel _ ((sc.outcomes.entries key).map _) _
    cases sc.outcomes.entries key with
    | none => exact .none
    | some e => exact .some (Entry.alike_dirty _ now e false)
  · intro key
    unfold flush
    dsimp only
    split_ifs with hdirty
    · exact QualityState.alike_prune _ now _
    · exact QualityState.Alike.refl _ now _

end Writes

end LiveScorecard

end Switchback
