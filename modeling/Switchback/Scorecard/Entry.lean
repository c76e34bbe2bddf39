import Mathlib.Data.List.Sort
import Switchback.Core.Target
import Switchback.Lib.Ring

/-!
# The outcome scorecard

One entry for each target and class: a bounded ring of samples, two streak counters and a
hysteresis state.  Times are nanoseconds of a monotonic clock.
-/

namespace Switchback

open Lib

inductive OutcomeClass where
  | success
  | truncated
  | refusal
  | targetFailure
  | clientOrAccountFault
  | cancelled
  deriving DecidableEq

/-- Scoreable classes are the posterior's denominator; the others are neutral. -/
def OutcomeClass.isScoreable : OutcomeClass → Bool
  | success | truncated | targetFailure => true
  | refusal | clientOrAccountFault | cancelled => false

/-- One recorded attempt. -/
structure Sample where
  ts : ℕ
  outcome : OutcomeClass
  latencyMs : ℕ
  costMicros : Option ℕ
  err : Option ErrorClass

def Sample.isScoreable (s : Sample) : Bool := s.outcome.isScoreable

/-- The shrinkage prior. -/
structure Prior where
  successRate : F64
  weight : F64
  deriving DecidableEq

def Prior.fromConfig (cfg : ScorecardConfig) : Prior where
  successRate := cfg.prior.defaultSuccessRate
  weight := cfg.prior.weight

/-- The state of one key. -/
structure Entry where
  ring : List Sample
  consecutiveFailures : ℕ
  consecutiveSuccesses : ℕ
  tier : OutcomeTier
  demotedSince : Option ℕ
  demoteTrigger : Option DemoteTrigger
  prior : Prior
  hydrated : Bool
  dirty : Bool

def Entry.new (prior : Prior) : Entry where
  ring := []
  consecutiveFailures := 0
  consecutiveSuccesses := 0
  tier := .healthy
  demotedSince := none
  demoteTrigger := none
  prior := prior
  hydrated := false
  dirty := false

/-! ### Window statistics -/

def ttlNanos (cfg : ScorecardConfig) : ℕ := cfg.window.ttlSecs * 1000000000

/-- Within the TTL; a sample from the future is live. -/
def isLive (now ttl : ℕ) (s : Sample) : Bool := decide (now - s.ts ≤ ttl)

structure WindowStats where
  nScoreable : ℕ
  successCount : ℕ
  truncatedCount : ℕ
  targetFailCount : ℕ
  pHat : F64
  truncRate : F64
  healthFactor : F32
  p50LatencyMs : ℕ
  p95LatencyMs : ℕ
  costPerSuccessMicros : ℕ
  dominantError : Option ErrorClass

/-- Count one more error of a class. -/
def bumpError (counts : List (ErrorClass × ℕ)) (err : ErrorClass) : List (ErrorClass × ℕ) :=
  if counts.any fun p => p.1 = err then
    counts.map fun p => if p.1 = err then (p.1, p.2 + 1) else p
  else counts ++ [(err, 1)]

/-- The last class with the greatest count. -/
def maxByCount (counts : List (ErrorClass × ℕ)) : Option (ErrorClass × ℕ) :=
  counts.foldl (fun best p => some (best.elim p fun b => if b.2 ≤ p.2 then p else b)) none

/-- Nearest-rank percentile of a sorted list. -/
def percentile (sorted : List ℕ) (p : F64) : ℕ :=
  let rank := ((p / Fp.ofNat 100) * Fp.ofNat sorted.length).ceilNat
  sorted.getD (min (rank - 1) (sorted.length - 1)) 0

/-- What the loop over the live samples accumulates. -/
structure WindowCounts where
  success : ℕ := 0
  truncated : ℕ := 0
  targetFail : ℕ := 0
  errors : List (ErrorClass × ℕ) := []
  latencies : List ℕ := []
  costSum : ℕ := 0

/-- One round of the loop. -/
def WindowCounts.add (w : WindowCounts) (s : Sample) : WindowCounts :=
  match s.outcome with
  | .success =>
      { w with
        success := w.success + 1
        latencies := w.latencies ++ [s.latencyMs]
        costSum := w.costSum + s.costMicros.getD 0 }
  | .truncated =>
      { w with truncated := w.truncated + 1, latencies := w.latencies ++ [s.latencyMs] }
  | .targetFailure =>
      { w with targetFail := w.targetFail + 1, errors := s.err.elim w.errors (bumpError w.errors) }
  | .refusal | .clientOrAccountFault | .cancelled => w

/-- The statistics of the counts. -/
def WindowCounts.stats (w : WindowCounts) (prior : Prior) : WindowStats :=
  let nScoreable := w.success + w.truncated + w.targetFail
  let pHat := (prior.weight * prior.successRate + Fp.ofNat w.success) /
    (prior.weight + Fp.ofNat nScoreable)
  let truncRate : F64 :=
    if nScoreable = 0 then Fp.zero else Fp.ofNat w.truncated / Fp.ofNat nScoreable
  let latencies := w.latencies.insertionSort (· ≤ ·)
  { nScoreable := nScoreable
    successCount := w.success
    truncatedCount := w.truncated
    targetFailCount := w.targetFail
    pHat := pHat
    truncRate := truncRate
    healthFactor := (Fp.clamp (pHat * (Fp.ofNat 1 - Fp.ofDecimal 5 1 * truncRate)) Fp.zero
      (Fp.ofNat 1)).convert
    p50LatencyMs := if 2 ≤ latencies.length then percentile latencies (Fp.ofNat 50) else 0
    p95LatencyMs := if 2 ≤ latencies.length then percentile latencies (Fp.ofNat 95) else 0
    costPerSuccessMicros := if w.success = 0 then 0 else w.costSum / w.success
    dominantError := (maxByCount w.errors).map Prod.fst }

def windowStats (ring : List Sample) (prior : Prior) (now ttl : ℕ) : WindowStats :=
  ((ring.filter (isLive now ttl)).foldl WindowCounts.add {}).stats prior

/-- Live and scoreable: what the statistics count. -/
def countsAt (now ttl : ℕ) (s : Sample) : Bool := s.isScoreable && isLive now ttl s

theorem WindowCounts.add_of_neutral (w : WindowCounts) {s : Sample} (h : s.isScoreable = false) :
    w.add s = w := by
  unfold Sample.isScoreable at h
  unfold WindowCounts.add
  cases hs : s.outcome <;> rw [hs] at h <;> first | rfl | exact absurd h (by decide)

theorem foldl_add_filter (l : List Sample) (w : WindowCounts) :
    (l.filter Sample.isScoreable).foldl WindowCounts.add w = l.foldl WindowCounts.add w := by
  induction l generalizing w with
  | nil => rfl
  | cons s l ih =>
    by_cases hs : s.isScoreable = true
    · rw [List.filter_cons_of_pos hs, List.foldl_cons, List.foldl_cons, ih]
    · rw [List.filter_cons_of_neg hs, List.foldl_cons, ih,
        w.add_of_neutral (Bool.eq_false_iff.mpr hs)]

theorem windowStats_congr {ring ring' : List Sample} {now ttl : ℕ}
    (h : ring.filter (countsAt now ttl) = ring'.filter (countsAt now ttl)) (prior : Prior) :
    windowStats ring prior now ttl = windowStats ring' prior now ttl := by
  have key (r : List Sample) : (r.filter (isLive now ttl)).foldl WindowCounts.add {} =
      (r.filter (countsAt now ttl)).foldl WindowCounts.add {} := by
    rw [← foldl_add_filter, List.filter_filter]
    rfl
  unfold windowStats
  rw [key, key, h]

/-- The samples counted so far. -/
def WindowCounts.total (w : WindowCounts) : ℕ := w.success + w.truncated + w.targetFail

theorem WindowCounts.total_add (w : WindowCounts) (s : Sample) :
    (w.add s).total = w.total + if s.isScoreable then 1 else 0 := by
  unfold add total Sample.isScoreable OutcomeClass.isScoreable
  cases s.outcome <;> simp only [if_true, Bool.false_eq_true, if_false] <;> omega

theorem total_foldl_add (l : List Sample) (w : WindowCounts) :
    (l.foldl WindowCounts.add w).total = w.total + l.countP Sample.isScoreable := by
  induction l generalizing w with
  | nil => rfl
  | cons s l ih =>
    rw [List.foldl_cons, ih, w.total_add, List.countP_cons]
    omega

theorem windowStats_nScoreable (ring : List Sample) (prior : Prior) (now ttl : ℕ) :
    (windowStats ring prior now ttl).nScoreable = ring.countP (countsAt now ttl) := by
  show ((ring.filter (isLive now ttl)).foldl WindowCounts.add {}).total = _
  rw [total_foldl_add, List.countP_filter]
  exact Nat.zero_add _

/-! ### Hysteresis -/

namespace Entry

/-- The gate-free and the gated way back to health. -/
def recovers (e : Entry) (stats : WindowStats) (cfg : ScorecardDemotionConfig) : Bool :=
  decide (cfg.fastRecoverStreak ≤ e.consecutiveSuccesses) ||
    (decide (cfg.minSamples ≤ stats.nScoreable) && Fp.le cfg.recoverSuccessRate stats.pHat &&
      decide (e.consecutiveFailures = 0))

def applyHysteresis (e : Entry) (stats : WindowStats) (cfg : ScorecardDemotionConfig) (now : ℕ)
    (sampleClass : OutcomeClass) : Entry :=
  match e.tier with
  | .healthy =>
      if sampleClass = .targetFailure ∨ sampleClass = .truncated then
        let fastPath := decide (cfg.fastDemoteStreak ≤ e.consecutiveFailures)
        let truncTriggered := decide (cfg.minSamples ≤ stats.nScoreable) &&
          Fp.le cfg.truncDemoteRate stats.truncRate
        let successRateTriggered := decide (cfg.minSamples ≤ stats.nScoreable) &&
          Fp.le stats.pHat cfg.demoteSuccessRate
        if fastPath || truncTriggered || successRateTriggered then
          { e with
            tier := .demoted
            demotedSince := some now
            demoteTrigger := some (if truncTriggered then .truncation
              else if fastPath then .streak else .success) }
        else e
      else e
  | .demoted =>
      if e.recovers stats cfg then
        { e with tier := .healthy, demotedSince := none, demoteTrigger := none }
      else e

/-- Clear the hysteresis state of a window that has gone quiet. -/
def resetIfTtlLapsed (e : Entry) (stats : WindowStats) : Entry :=
  if stats.nScoreable ≠ 0 then e
  else
    { e with
      tier := .healthy
      demotedSince := none
      demoteTrigger := none
      consecutiveFailures := 0
      consecutiveSuccesses := 0
      dirty := e.dirty || e.tier != .healthy || e.demotedSince.isSome ||
        e.demoteTrigger.isSome || e.consecutiveFailures != 0 || e.consecutiveSuccesses != 0 }

/-- The streak counters after a sample. -/
def countStreaks (e : Entry) (sampleClass : OutcomeClass) : Entry :=
  match sampleClass with
  | .targetFailure =>
      { e with consecutiveFailures := e.consecutiveFailures + 1, consecutiveSuccesses := 0 }
  | .success =>
      { e with consecutiveFailures := 0, consecutiveSuccesses := e.consecutiveSuccesses + 1 }
  | .truncated | .refusal | .clientOrAccountFault | .cancelled => e

def push (e : Entry) (s : Sample) (maxSamples : ℕ) : Entry :=
  { e with ring := Ring.push maxSamples e.ring s }

/-- The statistics of the entry's window. -/
def stats (e : Entry) (cfg : ScorecardConfig) (now : ℕ) : WindowStats :=
  windowStats e.ring e.prior now (ttlNanos cfg)

/-- Record one sample under the lock of the entry. -/
def record (cfg : ScorecardConfig) (e : Entry) (s : Sample) : Entry :=
  let now := s.ts
  let e := e.resetIfTtlLapsed (e.stats cfg now)
  let e := e.push s cfg.window.maxSamples
  let e := e.countStreaks s.outcome
  let e := e.applyHysteresis (e.stats cfg now) cfg.demotion now s.outcome
  { e with dirty := true }

/-- The routing read under the lock of the entry; it stores the TTL reset. -/
def project (cfg : ScorecardConfig) (e : Entry) (now : ℕ) : Option OutcomeSignal × Entry :=
  let stats := e.stats cfg now
  let e := e.resetIfTtlLapsed stats
  if stats.nScoreable = 0 ∧ e.hydrated = false then (none, e)
  else if !stats.pHat.isFinite || !stats.healthFactor.isFinite then (none, e)
  else
    (some
      { samples := stats.nScoreable
        successRate := stats.pHat.convert
        p50LatencyMs := stats.p50LatencyMs
        p95LatencyMs := stats.p95LatencyMs
        costPerSuccessMicros := stats.costPerSuccessMicros
        truncationRate := stats.truncRate.convert
        dominantError := stats.dominantError
        tier := e.tier
        healthFactor := stats.healthFactor
        demoteTrigger := if e.tier = .demoted then e.demoteTrigger else none
        consecutiveFailures := e.consecutiveFailures }, e)

end Entry

/-! ### The map of entries -/

/-- Target and capability class. -/
abbrev ScorecardKey := String × String

/-- The entries by key. -/
structure Scorecard where
  entries : ScorecardKey → Option Entry

namespace Scorecard

def new : Scorecard := ⟨fun _ => none⟩

def getOrCreate (sc : Scorecard) (key : ScorecardKey) (seedPrior : Prior) : Entry :=
  (sc.entries key).getD (Entry.new seedPrior)

def set (sc : Scorecard) (key : ScorecardKey) (e : Entry) : Scorecard :=
  ⟨Function.update sc.entries key (some e)⟩

def record (cfg : ScorecardConfig) (sc : Scorecard) (key : ScorecardKey) (seedPrior : Prior)
    (s : Sample) : Scorecard :=
  if cfg.enabled then sc.set key ((sc.getOrCreate key seedPrior).record cfg s) else sc

def project (cfg : ScorecardConfig) (sc : Scorecard) (key : ScorecardKey) (now : ℕ) :
    Option OutcomeSignal × Scorecard :=
  if cfg.enabled then
    match sc.entries key with
    | none => (none, sc)
    | some e => let (signal, e) := e.project cfg now; (signal, sc.set key e)
  else (none, sc)

end Scorecard

end Switchback
