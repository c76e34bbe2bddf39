import Switchback.Lib.Keyed
import Switchback.Lib.Word
import Switchback.Scorecard.Neutral

/-!
# The scorecard across restarts

Aggregates of the entries are written to a table and read back when the process starts.  Wall clock
times are signed milliseconds; the columns of the quality sidecar are left out.
-/

namespace Switchback

open Lib

structure ScorecardRow where
  targetId : String
  outcomeClass : String
  scoreableSamples : ℕ
  successCount : ℕ
  truncatedCount : ℕ
  targetFailCount : ℕ
  p50LatencyMs : ℕ
  p95LatencyMs : ℕ
  costPerSuccessMicros : ℕ
  errorHistogram : String
  consecutiveFailures : ℕ
  /-- `0` is healthy, `1` is demoted. -/
  tier : ℕ
  demotedSinceMs : Option ℤ
  updatedAtMs : ℤ
  schemaVer : ℕ

def ScorecardRow.key (row : ScorecardRow) : ScorecardKey := (row.targetId, row.outcomeClass)

/-! ### Writing -/

/-- The errors of the live samples, as a JSON object by name. -/
def errorHistogramJson (toJsonString : Json → String) (ring : List Sample) (now ttl : ℕ) : String :=
  let counts := ((ring.filter (isLive now ttl)).filterMap Sample.err).foldl bumpError []
  toJsonString (Json.mkObj (counts.map fun p => (p.1.asStr, Json.ofNat p.2)))

namespace Entry

/-- The aggregate of the entry.  It holds the live ring, not the prior. -/
def row (toJsonString : Json → String) (cfg : ScorecardConfig) (key : ScorecardKey) (now : ℕ)
    (nowEpochMs : ℤ) (e : Entry) : ScorecardRow where
  targetId := key.1
  outcomeClass := key.2
  scoreableSamples := (e.stats cfg now).nScoreable
  successCount := (e.stats cfg now).successCount
  truncatedCount := (e.stats cfg now).truncatedCount
  targetFailCount := (e.stats cfg now).targetFailCount
  p50LatencyMs := (e.stats cfg now).p50LatencyMs
  p95LatencyMs := (e.stats cfg now).p95LatencyMs
  costPerSuccessMicros := (e.stats cfg now).costPerSuccessMicros
  errorHistogram := errorHistogramJson toJsonString e.ring now (ttlNanos cfg)
  consecutiveFailures := e.consecutiveFailures
  tier := if e.tier = .demoted then 1 else 0
  demotedSinceMs := e.demotedSince.bind fun t =>
    if t ≤ now then some (nowEpochMs - ((now - t) / 10 ^ 6 : ℕ)) else none
  updatedAtMs := nowEpochMs
  schemaVer := 1

/-- The entry after its aggregate was taken. -/
def settled (e : Entry) : Entry := { e with dirty := false }

end Entry

namespace Scorecard

/-- One round of the snapshot: the aggregate of a dirty entry. -/
def snapshotStep (toJsonString : Json → String) (cfg : ScorecardConfig) (now : ℕ) (nowEpochMs : ℤ)
    (acc : List ScorecardRow × Scorecard) (key : ScorecardKey) : List ScorecardRow × Scorecard :=
  match acc.2.entries key with
  | some e =>
      if e.dirty then
        (acc.1 ++ [e.row toJsonString cfg key now nowEpochMs], acc.2.set key e.settled)
      else acc
  | none => acc

/-- The aggregates of the dirty entries; `order` is the order the map gives its keys in. -/
def dirtySnapshot (toJsonString : Json → String) (cfg : ScorecardConfig)
    (order : List ScorecardKey) (now : ℕ) (nowEpochMs : ℤ) (sc : Scorecard) :
    List ScorecardRow × Scorecard :=
  order.foldl (snapshotStep toJsonString cfg now nowEpochMs) ([], sc)

def markStep (sc : Scorecard) (key : ScorecardKey) : Scorecard :=
  match sc.entries key with
  | some e => sc.set key { e with dirty := true }
  | none => sc

/-- Entries whose aggregates could not be written are dirty again. -/
def markDirty (sc : Scorecard) (keys : List ScorecardKey) : Scorecard := keys.foldl markStep sc

end Scorecard

/-- The table, one row for each key. -/
abbrev ScorecardTable := KeyedLog ScorecardRow.key

/-- Insert the rows, or replace those of their keys. -/
def upsertScorecard (table : ScorecardTable) (rows : List ScorecardRow) : ScorecardTable :=
  rows.foldl KeyedLog.insertOrReplace table

/-- One cycle of the flusher; `stored` says whether the store took the rows. -/
def flushScorecardOnce (toJsonString : Json → String) (cfg : ScorecardConfig)
    (order : List ScorecardKey) (now : ℕ) (nowEpochMs : ℤ) (stored : Bool)
    (st : Scorecard × ScorecardTable) : Scorecard × ScorecardTable :=
  if !cfg.enabled then st
  else
    let (rows, sc) := st.1.dirtySnapshot toJsonString cfg order now nowEpochMs
    if rows.isEmpty then (sc, st.2)
    else if stored then (sc, upsertScorecard st.2 rows)
    else (sc.markDirty (rows.map ScorecardRow.key), st.2)

/-! ### Reading back -/

def tierOfCode (code : ℕ) : Option OutcomeTier :=
  if code = 0 then some .healthy else if code = 1 then some .demoted else none

/-- The prior and the tier of a row that is consistent, has samples and is fresh. -/
def hydrateRow (cfg : ScorecardConfig) (nowEpochMs : ℤ) (row : ScorecardRow) :
    Option (Prior × OutcomeTier) :=
  (Word.checkedAddU32 row.successCount row.truncatedCount).bind fun sum =>
  (Word.checkedAddU32 sum row.targetFailCount).bind fun sum =>
  if sum ≠ row.scoreableSamples then none
  else if row.scoreableSamples = 0 then none
  else
    (tierOfCode row.tier).bind fun tier =>
    let ageMs := Word.satSubI64 nowEpochMs row.updatedAtMs
    let staleMs := Word.satMulI64 (Word.toI64 cfg.persist.staleHydrateSecs) 1000
    if ageMs > staleMs then none
    else
      some ({ weight := Fp.ofNat (min row.scoreableSamples 50)
              successRate := Fp.ofNat row.successCount / Fp.ofNat row.scoreableSamples }, tier)

/-- When the monotonic clock showed the start of a demotion. -/
def demotedSinceOf (now : ℕ) (nowEpochMs : ℤ) (row : ScorecardRow) : Option ℕ :=
  row.demotedSinceMs.bind fun ms =>
    let age := (max (Word.satSubI64 nowEpochMs ms) 0).toNat * 10 ^ 6
    if age ≤ now then some (now - age) else none

namespace Scorecard

def hydrateStep (cfg : ScorecardConfig) (now : ℕ) (nowEpochMs : ℤ) (sc : Scorecard)
    (row : ScorecardRow) : Scorecard :=
  match hydrateRow cfg nowEpochMs row with
  | none => sc
  | some (prior, tier) =>
      sc.set row.key
        { sc.getOrCreate row.key prior with
          prior := prior
          tier := tier
          hydrated := true
          demotedSince := if tier = .demoted then demotedSinceOf now nowEpochMs row else none }

/-- Startup: the rows become priors. -/
def hydrate (cfg : ScorecardConfig) (now : ℕ) (nowEpochMs : ℤ) (sc : Scorecard)
    (rows : List ScorecardRow) : Scorecard :=
  rows.foldl (hydrateStep cfg now nowEpochMs) sc

end Scorecard

end Switchback
