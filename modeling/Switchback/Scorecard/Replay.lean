import Switchback.Lib.Word
import Switchback.Scorecard.Live

/-!
# Replaying the judgments

At startup the rings are rebuilt from the judgments in the store.  A replay replaces what the rings
hold: it clears them, and records the rows that are still fresh one at a time.
-/

namespace Switchback

open Lib

/-- A stored judgment, by the columns that a replay reads. -/
structure QualityJudgmentRecord where
  judgmentId : String
  servedTargetId : String
  targetClass : String
  evaluatorId : String
  status : String
  scoreNorm : Option F64
  createdAtMs : ℤ

namespace QualityJudgmentRecord

def key (row : QualityJudgmentRecord) : ScorecardKey := (row.servedTargetId, row.targetClass)

/-- The judgment of a row, as old as the row.  The clock may be younger than the row. -/
def sample (row : QualityJudgmentRecord) (scoreNorm : F64) (now : ℕ) (nowEpochMs : ℤ) :
    QualitySample :=
  let age := (max (Word.satSubI64 nowEpochMs row.createdAtMs) 0).toNat * 10 ^ 6
  { judgmentId := row.judgmentId
    ts := if age ≤ now then now - age else now
    createdAtMs := row.createdAtMs
    scoreNorm := scoreNorm }

end QualityJudgmentRecord

/-- The cast of the source wraps. -/
def ttlMs (cfg : ScorecardConfig) : ℤ := Word.satMulI64 (Word.toI64 cfg.window.ttlSecs) 1000

/-- Has the state to be cleared for an evaluator? -/
def QualityState.isStale (q : QualityState) (evaluatorId : String) : Bool :=
  !q.ring.samples.isEmpty || q.evaluatorId != some evaluatorId

namespace LiveScorecard

/-- Clear every ring and hand it over to an evaluator. -/
def clearQuality (sc : LiveScorecard) (evaluatorId : String) : LiveScorecard where
  outcomes := ⟨fun key => (sc.outcomes.entries key).map fun e =>
    { e with dirty := e.dirty || (sc.quality key).isStale evaluatorId }⟩
  quality := fun key =>
    if (sc.outcomes.entries key).isSome && (sc.quality key).isStale evaluatorId then
      { evaluatorId := some evaluatorId }
    else sc.quality key

section Replay

variable (cfg : ScorecardConfig) (qualityCfg : Quality.EvalConfig) (evaluatorId : String) (now : ℕ)
  (nowEpochMs : ℤ)

/-- One round of the replay. -/
def replayRow (sc : LiveScorecard) (row : QualityJudgmentRecord) : LiveScorecard :=
  if row.status ≠ "scored" ∨ row.evaluatorId ≠ evaluatorId ∨
      row.createdAtMs < Word.satSubI64 nowEpochMs (ttlMs cfg) then sc
  else
    match row.scoreNorm with
    | none => sc
    | some scoreNorm =>
        sc.recordQuality cfg qualityCfg row.key evaluatorId (row.sample scoreNorm now nowEpochMs)

/-- Is there anything to replay for? -/
def replays : Bool := cfg.enabled && qualityCfg.enabled && Text.trim evaluatorId != ""

def replayQuality (sc : LiveScorecard) (rows : List QualityJudgmentRecord) : LiveScorecard :=
  if replays cfg qualityCfg evaluatorId then
    rows.foldl (replayRow cfg qualityCfg evaluatorId now nowEpochMs) (sc.clearQuality evaluatorId)
  else sc

/-- The judgment of a valid scored row of the evaluator within the TTL. -/
def judgment (row : QualityJudgmentRecord) : Option QualitySample :=
  row.scoreNorm.bind fun scoreNorm =>
    let s := row.sample scoreNorm now nowEpochMs
    if row.status = "scored" ∧ row.evaluatorId = evaluatorId ∧
        nowEpochMs - cfg.window.ttlSecs * 1000 ≤ row.createdAtMs ∧
        Text.trim row.judgmentId ≠ "" ∧ 0 ≤ row.createdAtMs ∧ s.isScored = true then some s
    else none

/-- The judgments of one key. -/
def judgmentsOf (rows : List QualityJudgmentRecord) (key : ScorecardKey) : List QualitySample :=
  (rows.filter fun row => row.key = key).filterMap (judgment cfg evaluatorId now nowEpochMs)

/-- The newest judgments of a key, by creation time and id. -/
def replayedRing (rows : List QualityJudgmentRecord) (key : ScorecardKey) : List QualitySample :=
  SortedRing.newest cfg.window.maxSamples
    (Runs.sortOn QualitySample.key (judgmentsOf cfg evaluatorId now nowEpochMs rows key))

end Replay

/-! ### Entries and judgments -/

/-- A key without an entry has no judgments. -/
def Coherent (sc : LiveScorecard) : Prop :=
  ∀ key, sc.outcomes.entries key = none → sc.quality key = {}

section Coherent

variable {sc : LiveScorecard}

theorem coherent_new : new.Coherent := fun _ _ => rfl

/-- A change of one entry and its judgments. -/
theorem Coherent.update (h : sc.Coherent) (key : ScorecardKey) (e : Entry) (q : QualityState) :
    (LiveScorecard.mk (sc.outcomes.set key e) (Function.update sc.quality key q)).Coherent := by
  intro k hk
  change Function.update sc.outcomes.entries key (some e) k = none at hk
  by_cases hkey : k = key
  · subst hkey
    rw [Function.update_self] at hk
    cases hk
  · rw [Function.update_of_ne hkey] at hk
    show Function.update sc.quality key q k = _
    rw [Function.update_of_ne hkey]
    exact h k hk

theorem Coherent.recordQuality (h : sc.Coherent) (cfg : ScorecardConfig)
    (qualityCfg : Quality.EvalConfig) (key : ScorecardKey) (evaluatorId : String)
    (s : QualitySample) : (sc.recordQuality cfg qualityCfg key evaluatorId s).Coherent := by
  unfold LiveScorecard.recordQuality
  split_ifs
  · exact h.update key _ _
  · exact h

theorem Coherent.clearQuality (h : sc.Coherent) (evaluatorId : String) :
    (sc.clearQuality evaluatorId).Coherent := by
  intro key hkey
  have hnone : sc.outcomes.entries key = none := Option.map_eq_none_iff.1 hkey
  show (if ((sc.outcomes.entries key).isSome && _) = true then _ else _) = _
  rw [hnone, Option.isSome_none, Bool.false_and, if_neg Bool.false_ne_true]
  exact h key hnone

theorem Coherent.replayQuality (h : sc.Coherent) (cfg : ScorecardConfig)
    (qualityCfg : Quality.EvalConfig) (evaluatorId : String) (now : ℕ) (nowEpochMs : ℤ)
    (rows : List QualityJudgmentRecord) :
    (sc.replayQuality cfg qualityCfg evaluatorId now nowEpochMs rows).Coherent := by
  unfold LiveScorecard.replayQuality
  split_ifs
  · have hclear := h.clearQuality evaluatorId
    revert hclear
    generalize sc.clearQuality evaluatorId = start
    intro hstart
    induction rows generalizing start with
    | nil => exact hstart
    | cons row rows ih =>
      refine ih _ ?_
      unfold replayRow
      split_ifs
      · exact hstart
      · cases row.scoreNorm with
        | none => exact hstart
        | some score => exact hstart.recordQuality cfg qualityCfg _ _ _
  · exact h

end Coherent

/-! ### One key, row by row -/

/-- While the rows are recorded: is there an entry for the key, and what does its ring hold? -/
structure Replaying (evaluatorId : String) (key : ScorecardKey) (known : Bool)
    (l : List QualitySample) (sc : LiveScorecard) : Prop where
  entry : (sc.outcomes.entries key).isSome = known
  evaluator : known = true → (sc.quality key).evaluatorId = some evaluatorId
  fresh : known = false → sc.quality key = {}
  samples : (sc.quality key).ring.samples = l

section Rows

variable {cfg : ScorecardConfig} {qualityCfg : Quality.EvalConfig} {evaluatorId : String}
  {now : ℕ} {nowEpochMs : ℤ} {key : ScorecardKey} {known : Bool} {l : List QualitySample}
  {sc : LiveScorecard}

theorem Replaying.start (h : sc.Coherent) (evaluatorId : String) (key : ScorecardKey) :
    Replaying evaluatorId key (sc.outcomes.entries key).isSome [] (sc.clearQuality evaluatorId) := by
  have hquality : (sc.clearQuality evaluatorId).quality key =
      if (sc.outcomes.entries key).isSome && (sc.quality key).isStale evaluatorId then
        { evaluatorId := some evaluatorId }
      else sc.quality key := rfl
  refine ⟨?_, fun hknown => ?_, fun hnone => ?_, ?_⟩
  · show ((sc.outcomes.entries key).map _).isSome = _
    rw [Option.isSome_map]
  · rw [hquality, hknown, Bool.true_and]
    split_ifs with hstale
    · rfl
    · simp only [QualityState.isStale, Bool.or_eq_true, not_or, bne_iff_ne, ne_eq,
        not_not] at hstale
      exact hstale.2
  · rw [hquality, hnone, Bool.false_and, if_neg Bool.false_ne_true]
    exact h key (Option.isSome_eq_false_iff.1 hnone |> Option.isNone_iff_eq_none.1)
  · rw [hquality]
    split_ifs with hstale
    · rfl
    · cases hentry : sc.outcomes.entries key with
      | none =>
        rw [h key hentry]
        rfl
      | some e =>
        rw [hentry] at hstale
        have hempty : (sc.quality key).ring.samples.isEmpty = true := by
          by_contra hne
          exact hstale (by simp [QualityState.isStale, hne])
        exact List.isEmpty_iff.1 hempty

theorem Replaying.ofEvaluator (h : Replaying evaluatorId key known l sc) :
    (sc.ofEvaluator key evaluatorId).ring.samples = l := by
  unfold LiveScorecard.ofEvaluator
  split_ifs with hid
  · exact h.samples
  · cases known with
    | false =>
      rw [← h.samples, h.fresh rfl]
    | true => exact absurd (h.evaluator rfl) hid

/-- A judgment that is recorded. -/
theorem Replaying.recordQuality (h : Replaying evaluatorId key known l sc) {k : ScorecardKey}
    {s : QualitySample} (hs : accepts cfg qualityCfg evaluatorId s = true) :
    Replaying evaluatorId key (known || decide (k = key))
      (if k = key then SortedRing.push QualitySample.judgmentId QualitySample.key
        cfg.window.maxSamples l s else l)
      (sc.recordQuality cfg qualityCfg k evaluatorId s) := by
  have hquality : (sc.recordQuality cfg qualityCfg k evaluatorId s).quality =
      Function.update sc.quality k { sc.ofEvaluator k evaluatorId with
        ring := (sc.ofEvaluator k evaluatorId).ring.push s cfg.window.maxSamples } := by
    unfold LiveScorecard.recordQuality
    rw [if_pos hs]
    rfl
  have hentries : ∃ e, (sc.recordQuality cfg qualityCfg k evaluatorId s).outcomes.entries =
      Function.update sc.outcomes.entries k (some e) := by
    unfold LiveScorecard.recordQuality
    rw [if_pos hs]
    exact ⟨_, rfl⟩
  obtain ⟨e, hentries⟩ := hentries
  by_cases hk : k = key
  · subst hk
    rw [if_pos rfl, decide_eq_true rfl, Bool.or_true]
    refine ⟨?_, fun _ => ?_, fun hfalse => absurd hfalse (by decide), ?_⟩
    · rw [hentries, Function.update_self]
      rfl
    · rw [hquality, Function.update_self]
      show (sc.ofEvaluator k evaluatorId).evaluatorId = _
      unfold LiveScorecard.ofEvaluator
      split_ifs with hid
      · exact hid
      · rfl
    · rw [hquality, Function.update_self, ← h.ofEvaluator]
      rfl
  · rw [if_neg hk, decide_eq_false hk, Bool.or_false]
    have hne : key ≠ k := fun heq => hk heq.symm
    refine ⟨?_, ?_, ?_, ?_⟩
    · rw [hentries, Function.update_of_ne hne]
      exact h.entry
    · rw [hquality, Function.update_of_ne hne]
      exact h.evaluator
    · rw [hquality, Function.update_of_ne hne]
      exact h.fresh
    · rw [hquality, Function.update_of_ne hne]
      exact h.samples

/-- Below `2 ^ 63` seconds the cast of the TTL does not wrap, and what saturates admits all. -/
theorem lt_cutoff_iff (httl : cfg.window.ttlSecs < 2 ^ 63) (hnow : nowEpochMs ≤ Word.i64Max)
    {createdAtMs : ℤ} (hcreated : 0 ≤ createdAtMs) :
    createdAtMs < Word.satSubI64 nowEpochMs (ttlMs cfg) ↔
      createdAtMs < nowEpochMs - cfg.window.ttlSecs * 1000 := by
  unfold ttlMs Word.satMulI64 Word.satSubI64 Word.toI64
  unfold Word.i64Max Word.i64Min at *
  rw [if_pos (by omega)]
  omega

theorem replayRow_eq (hreplays : replays cfg qualityCfg evaluatorId = true)
    (httl : cfg.window.ttlSecs < 2 ^ 63) (hnow : nowEpochMs ≤ Word.i64Max) (sc : LiveScorecard)
    (row : QualityJudgmentRecord) :
    (judgment cfg evaluatorId now nowEpochMs row = none ∧
        sc.replayRow cfg qualityCfg evaluatorId now nowEpochMs row = sc) ∨
      ∃ s, judgment cfg evaluatorId now nowEpochMs row = some s ∧
        accepts cfg qualityCfg evaluatorId s = true ∧
        sc.replayRow cfg qualityCfg evaluatorId now nowEpochMs row =
          sc.recordQuality cfg qualityCfg row.key evaluatorId s := by
  unfold replays at hreplays
  rw [Bool.and_eq_true, Bool.and_eq_true] at hreplays
  obtain ⟨⟨hen, hen'⟩, hid⟩ := hreplays
  cases hscore : row.scoreNorm with
  | none =>
    left
    unfold judgment replayRow
    rw [hscore]
    exact ⟨rfl, ite_self _⟩
  | some score =>
    have haccepts : accepts cfg qualityCfg evaluatorId (row.sample score now nowEpochMs) = true ↔
        Text.trim row.judgmentId ≠ "" ∧ 0 ≤ row.createdAtMs ∧
          (row.sample score now nowEpochMs).isScored = true := by
      unfold accepts
      rw [hen, hen', hid]
      simp [QualityJudgmentRecord.sample, and_assoc]
    unfold judgment replayRow
    rw [hscore]
    dsimp only [Option.bind_some]
    by_cases hvalid : Text.trim row.judgmentId ≠ "" ∧ 0 ≤ row.createdAtMs ∧
        (row.sample score now nowEpochMs).isScored = true
    · have hcut := lt_cutoff_iff httl hnow hvalid.2.1
      by_cases hrow : row.status ≠ "scored" ∨ row.evaluatorId ≠ evaluatorId ∨
          row.createdAtMs < Word.satSubI64 nowEpochMs (ttlMs cfg)
      · left
        rw [if_pos hrow]
        refine ⟨if_neg fun hall => ?_, rfl⟩
        rcases hrow with hrow | hrow | hrow
        · exact hrow hall.1
        · exact hrow hall.2.1
        · exact absurd (hcut.1 hrow) (by omega)
      · right
        rw [if_neg hrow]
        push Not at hrow
        have hfresh : nowEpochMs - cfg.window.ttlSecs * 1000 ≤ row.createdAtMs :=
          not_lt.1 fun hlt => absurd (hcut.2 hlt) (not_lt.2 hrow.2.2)
        exact ⟨_, if_pos ⟨hrow.1, hrow.2.1, hfresh, hvalid⟩, haccepts.2 hvalid, rfl⟩
    · left
      refine ⟨if_neg fun hall => hvalid hall.2.2.2, ?_⟩
      unfold LiveScorecard.recordQuality
      rw [if_neg fun hok => hvalid (haccepts.1 hok), ite_self]

/-- **One row.** -/
theorem Replaying.replayRow (hreplays : replays cfg qualityCfg evaluatorId = true)
    (httl : cfg.window.ttlSecs < 2 ^ 63) (hnow : nowEpochMs ≤ Word.i64Max)
    (h : Replaying evaluatorId key known l sc) (row : QualityJudgmentRecord) :
    Replaying evaluatorId key
      (known || !(judgmentsOf cfg evaluatorId now nowEpochMs [row] key).isEmpty)
      ((judgmentsOf cfg evaluatorId now nowEpochMs [row] key).foldl
        (SortedRing.push QualitySample.judgmentId QualitySample.key cfg.window.maxSamples) l)
      (sc.replayRow cfg qualityCfg evaluatorId now nowEpochMs row) := by
  unfold judgmentsOf
  rcases replayRow_eq hreplays httl hnow sc row with ⟨hnone, hrow⟩ | ⟨s, hsome, hs, hrow⟩
  · rw [hrow]
    by_cases hk : row.key = key <;> simpa [hk, hnone] using h
  · rw [hrow]
    have hrecord := @Replaying.recordQuality _ _ _ _ _ _ _ h row.key _ hs
    by_cases hk : row.key = key <;> simpa [hk, hsome] using hrecord

/-- **All rows.** -/
theorem Replaying.foldl_replayRow (now : ℕ) (hreplays : replays cfg qualityCfg evaluatorId = true)
    (httl : cfg.window.ttlSecs < 2 ^ 63) (hnow : nowEpochMs ≤ Word.i64Max)
    (h : Replaying evaluatorId key known l sc) (rows : List QualityJudgmentRecord) :
    Replaying evaluatorId key
      (known || !(judgmentsOf cfg evaluatorId now nowEpochMs rows key).isEmpty)
      ((judgmentsOf cfg evaluatorId now nowEpochMs rows key).foldl
        (SortedRing.push QualitySample.judgmentId QualitySample.key cfg.window.maxSamples) l)
      (rows.foldl (LiveScorecard.replayRow cfg qualityCfg evaluatorId now nowEpochMs) sc) := by
  induction rows generalizing known l sc with
  | nil => simpa [judgmentsOf] using h
  | cons row rows ih =>
    have hsplit : judgmentsOf cfg evaluatorId now nowEpochMs (row :: rows) key =
        judgmentsOf cfg evaluatorId now nowEpochMs [row] key ++
          judgmentsOf cfg evaluatorId now nowEpochMs rows key := by
      unfold judgmentsOf
      rw [← List.filterMap_append, ← List.filter_append, List.singleton_append]
    have hempty (a b : List QualitySample) : (a ++ b).isEmpty = (a.isEmpty && b.isEmpty) := by
      cases a <;> rfl
    rw [hsplit, List.foldl_append, hempty, Bool.not_and, ← Bool.or_assoc]
    exact ih (h.replayRow hreplays httl hnow row)

/-! ### The whole replay -/

variable {rows rows' : List QualityJudgmentRecord}

theorem judgmentsOf_perm (h : rows'.Perm rows)
    (key : ScorecardKey) : (judgmentsOf cfg evaluatorId now nowEpochMs rows' key).Perm
      (judgmentsOf cfg evaluatorId now nowEpochMs rows key) :=
  (h.filter _).filterMap _

theorem judgmentId_of_judgment {row : QualityJudgmentRecord} {s : QualitySample}
    (h : judgment cfg evaluatorId now nowEpochMs row = some s) : s.judgmentId = row.judgmentId := by
  obtain ⟨score, -, h⟩ := Option.bind_eq_some_iff.1 h
  dsimp only at h
  split_ifs at h
  obtain rfl := Option.some.inj h
  rfl

theorem judgmentsOf_nodup
    (hids : (rows.map QualityJudgmentRecord.judgmentId).Nodup) (key : ScorecardKey) :
    ((judgmentsOf cfg evaluatorId now nowEpochMs rows key).map QualitySample.judgmentId).Nodup := by
  have hkept : ((rows.filter fun row => row.key = key).map
      QualityJudgmentRecord.judgmentId).Nodup := (List.filter_sublist.map _).nodup hids
  refine List.Sublist.nodup ?_ hkept
  unfold judgmentsOf
  generalize (rows.filter fun row => row.key = key) = kept
  induction kept with
  | nil => exact List.Sublist.refl _
  | cons row kept ih =>
    cases hrow : judgment cfg evaluatorId now nowEpochMs row with
    | none =>
      rw [List.filterMap_cons_none hrow]
      exact ih.cons _
    | some s =>
      rw [List.filterMap_cons_some hrow, List.map_cons, List.map_cons,
        judgmentId_of_judgment hrow]
      exact ih.cons_cons _

/-- **What a replay leaves in one key.** -/
theorem replaying_replayQuality (now : ℕ) (hreplays : replays cfg qualityCfg evaluatorId = true)
    (httl : cfg.window.ttlSecs < 2 ^ 63) (hnow : nowEpochMs ≤ Word.i64Max) (hsc : sc.Coherent)
    (hids : (rows.map QualityJudgmentRecord.judgmentId).Nodup) (key : ScorecardKey) :
    Replaying evaluatorId key
      ((sc.outcomes.entries key).isSome ||
        !(judgmentsOf cfg evaluatorId now nowEpochMs rows key).isEmpty)
      (replayedRing cfg evaluatorId now nowEpochMs rows key)
      (sc.replayQuality cfg qualityCfg evaluatorId now nowEpochMs rows) := by
  have hrun := (Replaying.start hsc evaluatorId key).foldl_replayRow now hreplays httl hnow rows
  rw [SortedRing.foldl_push QualitySample.judgmentId_of_key_eq (judgmentsOf_nodup hids key)] at hrun
  unfold LiveScorecard.replayQuality
  rw [if_pos hreplays]
  exact hrun

theorem Replaying.projectQuality_eq {sc' : LiveScorecard} (h : Replaying evaluatorId key known l sc)
    (h' : Replaying evaluatorId key known l sc') (t : ℕ) :
    (sc.projectQuality cfg qualityCfg key evaluatorId t).1 =
      (sc'.projectQuality cfg qualityCfg key evaluatorId t).1 := by
  have hentry := h.entry.trans h'.entry.symm
  have hlive : (sc.quality key).ring.prune t (ttlNanos cfg) =
      (sc'.quality key).ring.prune t (ttlNanos cfg) := by
    unfold QualityRing.prune QualityRing.live
    simp only [h.samples, h'.samples]
  have hid : known = true → (sc.quality key).evaluatorId = (sc'.quality key).evaluatorId :=
    fun hknown => (h.evaluator hknown).trans (h'.evaluator hknown).symm
  have hknown := h.entry
  unfold LiveScorecard.projectQuality
  by_cases hen : (!cfg.enabled || !qualityCfg.enabled) = true
  · rw [if_pos hen, if_pos hen]
  rw [if_neg hen, if_neg hen]
  revert hentry hknown
  generalize sc.outcomes.entries key = o
  generalize sc'.outcomes.entries key = o'
  intro hentry hknown
  cases o <;> cases o' <;> cases hentry
  · rfl
  · dsimp only
    rw [hid (hknown ▸ rfl), hlive]
    split_ifs <;> rfl

theorem replayedRing_congr (h : rows'.Perm rows)
    (hids : (rows.map QualityJudgmentRecord.judgmentId).Nodup) (key : ScorecardKey) :
    replayedRing cfg evaluatorId now nowEpochMs rows' key =
      replayedRing cfg evaluatorId now nowEpochMs rows key :=
  (SortedRing.newest_congr QualitySample.judgmentId_of_key_eq (judgmentsOf_nodup hids key)
    (judgmentsOf_perm h key).symm).symm

theorem replaying_again (hreplays : replays cfg qualityCfg evaluatorId = true)
    (httl : cfg.window.ttlSecs < 2 ^ 63) (hnow : nowEpochMs ≤ Word.i64Max) (hsc : sc.Coherent)
    (hperm : rows'.Perm rows)
    (hids : (rows.map QualityJudgmentRecord.judgmentId).Nodup) {next : LiveScorecard}
    (hnext : next = sc.replayQuality cfg qualityCfg evaluatorId now nowEpochMs rows' ∨
      next = (sc.replayQuality cfg qualityCfg evaluatorId now nowEpochMs rows).replayQuality cfg
        qualityCfg evaluatorId now nowEpochMs rows') (key : ScorecardKey) :
    Replaying evaluatorId key
      ((sc.outcomes.entries key).isSome ||
        !(judgmentsOf cfg evaluatorId now nowEpochMs rows key).isEmpty)
      (replayedRing cfg evaluatorId now nowEpochMs rows key) next := by
  have hids' : (rows'.map QualityJudgmentRecord.judgmentId).Nodup :=
    (hperm.map _).nodup_iff.2 hids
  have hempty : (judgmentsOf cfg evaluatorId now nowEpochMs rows' key).isEmpty =
      (judgmentsOf cfg evaluatorId now nowEpochMs rows key).isEmpty :=
    (judgmentsOf_perm hperm key).isEmpty_eq
  rw [← replayedRing_congr hperm hids key]
  rcases hnext with rfl | rfl
  · have hrun := replaying_replayQuality now hreplays httl hnow hsc hids' key
    rwa [hempty] at hrun
  · have hfirst := replaying_replayQuality now hreplays httl hnow hsc hids key
    have hcoherent := hsc.replayQuality cfg qualityCfg evaluatorId now nowEpochMs rows
    have hrun := replaying_replayQuality now hreplays httl hnow hcoherent hids' key
    rwa [hfirst.entry, hempty, Bool.or_assoc, Bool.or_self] at hrun

end Rows

variable {cfg : ScorecardConfig} {qualityCfg : Quality.EvalConfig} {evaluatorId : String}
  {now : ℕ} {nowEpochMs : ℤ} {sc : LiveScorecard}

/-- **A replay leaves in each ring the newest rows that count.**  Replaying the rows again, or in
another order, leaves the same rings and the same signals.  With nothing to replay for it leaves the
scorecard as it is. -/
theorem replayQuality_replaces (hsc : sc.Coherent) {rows : List QualityJudgmentRecord}
    (hids : (rows.map QualityJudgmentRecord.judgmentId).Nodup) (hnow : nowEpochMs ≤ Word.i64Max) :
    (replays cfg qualityCfg evaluatorId = false →
      sc.replayQuality cfg qualityCfg evaluatorId now nowEpochMs rows = sc) ∧
    (replays cfg qualityCfg evaluatorId = true → cfg.window.ttlSecs < 2 ^ 63 →
      let replayed := sc.replayQuality cfg qualityCfg evaluatorId now nowEpochMs rows
      (∀ key, (replayed.quality key).ring.samples =
        replayedRing cfg evaluatorId now nowEpochMs rows key) ∧
      ∀ rows', rows'.Perm rows → ∀ next,
        next = sc.replayQuality cfg qualityCfg evaluatorId now nowEpochMs rows' ∨
          next = replayed.replayQuality cfg qualityCfg evaluatorId now nowEpochMs rows' →
        ∀ key, (next.quality key).ring.samples = (replayed.quality key).ring.samples ∧
          ∀ t, (next.projectQuality cfg qualityCfg key evaluatorId t).1 =
            (replayed.projectQuality cfg qualityCfg key evaluatorId t).1) := by
  refine ⟨fun hoff => ?_, fun hreplays httl => ⟨fun key => ?_, ?_⟩⟩
  · unfold replayQuality
    rw [if_neg (by rw [hoff]; decide)]
  · exact (replaying_replayQuality now hreplays httl hnow hsc hids key).samples
  · intro rows' hperm next hnext key
    have hfirst := replaying_replayQuality now hreplays httl hnow hsc hids key
    have hagain := replaying_again hreplays httl hnow hsc hperm hids hnext key
    exact ⟨hagain.samples.trans hfirst.samples.symm, hagain.projectQuality_eq hfirst⟩

section Example

/-- Judgments of one target, the newer one first. -/
def judgedTwice : List QualityJudgmentRecord :=
  [⟨"later", "mock/served", "any", "eval-a", "scored", some Fp.zero, 9000⟩,
    ⟨"earlier", "mock/served", "any", "eval-a", "scored", some (Fp.ofNat 1), 8000⟩]

theorem replayQuality_replaces_judgedTwice :
    replays { enabled := true } { enabled := true } "eval-a" = true ∧
      ∀ key, ((new.replayQuality { enabled := true } { enabled := true } "eval-a" (10 ^ 13) 10000
          judgedTwice).quality key).ring.samples =
        replayedRing { enabled := true } "eval-a" (10 ^ 13) 10000 judgedTwice key := by
  have hreplays : replays { enabled := true } { enabled := true } "eval-a" = true := by
    decide +kernel
  exact ⟨hreplays, ((replayQuality_replaces coherent_new (by decide) (by decide)).2 hreplays
    (by decide)).1⟩

/-- A blank evaluator leaves the rings of another one, and a TTL of `2 ^ 64 - 1` seconds wraps, so
that judgments of the last seconds are left out. -/
theorem replayQuality_blank_and_wrapped :
    let judged := new.replayQuality { enabled := true } { enabled := true } "eval-a" (10 ^ 13) 10000
      judgedTwice
    let forever : ScorecardConfig := { enabled := true, window := { ttlSecs := 2 ^ 64 - 1 } }
    judged.Coherent ∧
      ((judged.replayQuality { enabled := true } { enabled := true } "" (10 ^ 13) 10000
          []).quality ("mock/served", "any")).ring.samples ≠
        replayedRing { enabled := true } "" (10 ^ 13) 10000 [] ("mock/served", "any") ∧
      ((new.replayQuality forever { enabled := true } "eval-a" (10 ^ 13) 10000
          judgedTwice).quality ("mock/served", "any")).ring.samples ≠
        replayedRing forever "eval-a" (10 ^ 13) 10000 judgedTwice ("mock/served", "any") :=
  ⟨coherent_new.replayQuality _ _ _ _ _ _, by decide +kernel, by decide +kernel⟩

end Example

end LiveScorecard

end Switchback
