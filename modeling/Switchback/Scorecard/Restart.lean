import Switchback.Scorecard.Observed

/-!
# An idle restart

Rows are read back at the start, routing reads the entries and the flusher runs, but no attempt is
recorded; then the process starts again from the table.
-/

namespace Switchback

open Lib

/-! ### The operations on one key -/

namespace Scorecard

variable (toJsonString : Json → String) (cfg : ScorecardConfig)

theorem entries_markDirty (keys : List ScorecardKey) (sc : Scorecard) (k : ScorecardKey) :
    (sc.markDirty keys).entries k =
      (sc.entries k).map fun e => if k ∈ keys then { e with dirty := true } else e := by
  have hstep (sc : Scorecard) (key : ScorecardKey) :
      (sc.markStep key).entries k =
        (sc.entries k).map fun e => if k = key then { e with dirty := true } else e := by
    unfold markStep
    by_cases hk : k = key
    · subst hk
      cases hkey : sc.entries k <;> simp [hkey, entries_set]
    · cases hkey : sc.entries key <;> simp [hk, entries_set]
  induction keys generalizing sc with
  | nil => simp [markDirty]
  | cons key keys ih =>
    rw [markDirty, List.foldl_cons, ← markDirty, ih, hstep, Option.map_map]
    refine congrArg (fun f => Option.map f (sc.entries k)) (funext fun e => ?_)
    by_cases hk : k = key <;> by_cases hmem : k ∈ keys <;> simp [hk, hmem, Function.comp_apply]

/-- The row that a snapshot takes of a key. -/
def dirtyRow (now : ℕ) (nowEpochMs : ℤ) (sc : Scorecard) (key : ScorecardKey) :
    Option ScorecardRow :=
  (sc.entries key).bind fun e =>
    if e.dirty then some (e.row toJsonString cfg key now nowEpochMs) else none

theorem snapshotStep_fst (now : ℕ) (nowEpochMs : ℤ) (acc : List ScorecardRow × Scorecard)
    (key : ScorecardKey) :
    (snapshotStep toJsonString cfg now nowEpochMs acc key).1 =
      acc.1 ++ (acc.2.dirtyRow toJsonString cfg now nowEpochMs key).toList := by
  unfold snapshotStep dirtyRow
  cases acc.2.entries key with
  | none => simp
  | some e => cases hdirty : e.dirty <;> simp [hdirty]

theorem snapshot_fst {order : List ScorecardKey} (horder : order.Nodup) (now : ℕ)
    (nowEpochMs : ℤ) (acc : List ScorecardRow × Scorecard) :
    (order.foldl (snapshotStep toJsonString cfg now nowEpochMs) acc).1 =
      acc.1 ++ order.filterMap (acc.2.dirtyRow toJsonString cfg now nowEpochMs) := by
  induction order generalizing acc with
  | nil => simp
  | cons key order ih =>
    obtain ⟨hkey, horder⟩ := List.nodup_cons.1 horder
    have hrest : order.filterMap ((snapshotStep toJsonString cfg now nowEpochMs acc key).2.dirtyRow
        toJsonString cfg now nowEpochMs) =
        order.filterMap (acc.2.dirtyRow toJsonString cfg now nowEpochMs) := by
      refine List.filterMap_congr fun k hk => ?_
      have hne : k ≠ key := fun h => hkey (h ▸ hk)
      rw [dirtyRow, entries_snapshotStep]
      simp [hne, dirtyRow]
    rw [List.foldl_cons, ih horder, hrest, snapshotStep_fst, List.filterMap_cons,
      List.append_assoc]
    cases acc.2.dirtyRow toJsonString cfg now nowEpochMs key <;> rfl

end Scorecard

/-- A read of the routing, or a cycle of the flusher. -/
inductive IdleOp where
  | project (key : ScorecardKey) (now : ℕ)
  | flush (order : List ScorecardKey) (now : ℕ) (nowEpochMs : ℤ) (stored : Bool)

section Idle

variable (toJsonString : Json → String) (cfg : ScorecardConfig)

def idleStep (st : Scorecard × ScorecardTable) : IdleOp → Scorecard × ScorecardTable
  | .project key now => ((st.1.project cfg key now).2, st.2)
  | .flush order now nowEpochMs stored =>
      flushScorecardOnce toJsonString cfg order now nowEpochMs stored st

def idleRun (st : Scorecard × ScorecardTable) (ops : List IdleOp) : Scorecard × ScorecardTable :=
  ops.foldl (idleStep toJsonString cfg) st

/-- The entry and the row of a key. -/
def cell (key : ScorecardKey) (st : Scorecard × ScorecardTable) :
    Option Entry × Option ScorecardRow :=
  (st.1.entries key, firstWith ScorecardRow.key key st.2.rows)

/-- What an operation does to the entry and the row of a key. -/
def cellStep (key : ScorecardKey) (c : Option Entry × Option ScorecardRow) :
    IdleOp → Option Entry × Option ScorecardRow
  | .project k now => (c.1.map fun e => if key = k then (e.project cfg now).2 else e, c.2)
  | .flush _ now nowEpochMs stored =>
      match c.1 with
      | some e =>
          if e.dirty && stored then
            (some e.settled, some (e.row toJsonString cfg key now nowEpochMs))
          else c
      | none => c

theorem rowOf_snapshot {order : List ScorecardKey} (horder : order.Nodup) (now : ℕ)
    (nowEpochMs : ℤ) (sc : Scorecard) {key : ScorecardKey}
    (hkey : sc.entries key ≠ none → key ∈ order) :
    (((sc.dirtySnapshot toJsonString cfg order now nowEpochMs).1).map ScorecardRow.key).Nodup ∧
      firstWith ScorecardRow.key key (sc.dirtySnapshot toJsonString cfg order now nowEpochMs).1 =
        sc.dirtyRow toJsonString cfg now nowEpochMs key := by
  have hkeys (k : ScorecardKey) (row : ScorecardRow)
      (hrow : sc.dirtyRow toJsonString cfg now nowEpochMs k = some row) : row.key = k := by
    unfold Scorecard.dirtyRow at hrow
    obtain ⟨e, -, he⟩ := Option.bind_eq_some_iff.1 hrow
    split_ifs at he
    cases he
    rfl
  rw [Scorecard.dirtySnapshot, Scorecard.snapshot_fst toJsonString cfg horder, List.nil_append]
  have hsublist := map_filterMap_sublist hkeys order
  refine ⟨horder.sublist hsublist, ?_⟩
  by_cases hmem : key ∈ order
  · exact firstWith_filterMap hkeys horder hmem
  · have hnone : sc.entries key = none := by
      by_contra h
      exact hmem (hkey h)
    rw [firstWith_eq_none.2 fun h => hmem (hsublist.subset h), Scorecard.dirtyRow, hnone]
    rfl

theorem cell_idleStep (hen : cfg.enabled = true) (st : Scorecard × ScorecardTable) (op : IdleOp)
    {key : ScorecardKey}
    (horder : ∀ order now nowEpochMs stored, op = .flush order now nowEpochMs stored →
      order.Nodup ∧ (st.1.entries key ≠ none → key ∈ order)) :
    cell key (idleStep toJsonString cfg st op) =
      cellStep toJsonString cfg key (cell key st) op := by
  cases op with
  | project k now => exact Prod.ext (Scorecard.entries_project cfg hen st.1 k key now) rfl
  | flush order now nowEpochMs stored =>
    obtain ⟨hnodup, hkey⟩ := horder order now nowEpochMs stored rfl
    obtain ⟨hrows, hrow⟩ := rowOf_snapshot toJsonString cfg hnodup now nowEpochMs st.1 hkey
    have hentry := Scorecard.entries_snapshot toJsonString cfg order now nowEpochMs ([], st.1) key
    rw [← Scorecard.dirtySnapshot] at hentry
    set snapshot := st.1.dirtySnapshot toJsonString cfg order now nowEpochMs with hsnapshot
    have hflush : idleStep toJsonString cfg st (.flush order now nowEpochMs stored) =
        if snapshot.1.isEmpty then (snapshot.2, st.2)
        else if stored then (snapshot.2, upsertScorecard st.2 snapshot.1)
        else (snapshot.2.markDirty (snapshot.1.map ScorecardRow.key), st.2) := by
      simp only [idleStep, flushScorecardOnce, hen, Bool.not_true, Bool.false_eq_true, if_false,
        ← hsnapshot]
    have hupsert : firstWith ScorecardRow.key key (upsertScorecard st.2 snapshot.1).rows =
        (st.1.dirtyRow toJsonString cfg now nowEpochMs key).or
          (firstWith ScorecardRow.key key st.2.rows) := by
      rw [upsertScorecard, KeyedLog.firstWith_foldl_insertOrReplace hrows, hrow]
    have hdirty : key ∈ snapshot.1.map ScorecardRow.key ↔
        (st.1.dirtyRow toJsonString cfg now nowEpochMs key).isSome := by
      rw [← hrow, firstWith_isSome, keys, List.mem_toFinset]
    rw [hflush]
    simp only [cell, cellStep]
    cases he : st.1.entries key with
    | none =>
      rw [he] at hentry
      have hnone : st.1.dirtyRow toJsonString cfg now nowEpochMs key = none := by
        rw [Scorecard.dirtyRow, he]
        rfl
      rw [hnone] at hupsert
      split_ifs
      · rw [hentry]
        rfl
      · rw [hentry, hupsert]
        rfl
      · rw [Scorecard.entries_markDirty, hentry]
        rfl
    | some e =>
      have hmem : key ∈ order := hkey (by simp [he])
      simp only [he, hmem, if_true] at hentry
      have hrowOf : st.1.dirtyRow toJsonString cfg now nowEpochMs key =
          if e.dirty then some (e.row toJsonString cfg key now nowEpochMs) else none := by
        rw [Scorecard.dirtyRow, he]
        rfl
      rw [hrowOf] at hupsert hdirty
      cases hd : e.dirty with
      | false =>
        -- the entry is not among the rows
        have hsettled : e.settled = e := Scorecard.settled_of_not_dirty hd
        have hkeys : key ∉ snapshot.1.map ScorecardRow.key := by simpa [hd] using hdirty
        simp only [hd, Bool.false_and, Bool.false_eq_true, if_false] at hupsert ⊢
        split_ifs
        · rw [hentry, Option.map_some, hsettled]
        · rw [hentry, hupsert, Option.map_some, hsettled]
          rfl
        · rw [Scorecard.entries_markDirty, hentry, Option.map_some, hsettled]
          simp [hkeys]
      | true =>
        have hkeys : key ∈ snapshot.1.map ScorecardRow.key := by simpa [hd] using hdirty
        have hrows : snapshot.1.isEmpty = false := by
          cases hlist : snapshot.1 with
          | nil =>
            rw [hlist] at hkeys
            cases hkeys
          | cons => rfl
        simp only [hrows, hd, Bool.true_and, Bool.false_eq_true, if_false, if_true] at hupsert ⊢
        split_ifs
        · rw [hentry, hupsert]
          rfl
        · -- marked dirty again, it is as before
          have hagain : { e.settled with dirty := true } = e := by
            rw [Entry.settled, ← hd]
          rw [Scorecard.entries_markDirty, hentry, Option.map_some, Option.map_some, if_pos hkeys,
            hagain]

end Idle

/-! ### How far a key got -/

inductive IdlePhase where
  | untouched
  | read
  | written
  deriving DecidableEq

def phaseStep (key : ScorecardKey) (phase : IdlePhase) : IdleOp → IdlePhase
  | .project k _ => if k = key ∧ phase = .untouched then .read else phase
  | .flush _ _ _ stored => if stored = true ∧ phase = .read then .written else phase

def idlePhase (key : ScorecardKey) (ops : List IdleOp) : IdlePhase :=
  ops.foldl (phaseStep key) .untouched

/-- The key is read, and a later cycle of the flusher is stored. -/
def ReadThenStored (key : ScorecardKey) (ops : List IdleOp) : Prop :=
  ∃ a b, ops = a ++ b ∧ (∃ now, .project key now ∈ a) ∧
    ∃ order now nowEpochMs, .flush order now nowEpochMs true ∈ b

variable (key : ScorecardKey)

variable (ops : List IdleOp)

theorem idlePhase_concat (op : IdleOp) :
    idlePhase key (ops ++ [op]) = phaseStep key (idlePhase key ops) op := by
  rw [idlePhase, List.foldl_append]
  rfl

theorem readThenStored_concat (op : IdleOp) :
    ReadThenStored key (ops ++ [op]) ↔
      ReadThenStored key ops ∨ ((∃ now, .project key now ∈ ops) ∧
        ∃ order now nowEpochMs, op = .flush order now nowEpochMs true) := by
  constructor
  · rintro ⟨a, b, hops, hread, order, now, nowEpochMs, hflush⟩
    rcases List.eq_nil_or_concat b with rfl | ⟨b, last, rfl⟩
    · cases hflush
    · rw [List.concat_eq_append, ← List.append_assoc] at hops
      obtain ⟨rfl, hlast⟩ := List.append_inj' hops rfl
      obtain rfl : op = last := by simpa using hlast
      rw [List.concat_eq_append, List.mem_append, List.mem_singleton] at hflush
      rcases hflush with hflush | rfl
      · exact .inl ⟨a, b, rfl, hread, order, now, nowEpochMs, hflush⟩
      · obtain ⟨t, ht⟩ := hread
        exact .inr ⟨⟨t, List.mem_append_left _ ht⟩, order, now, nowEpochMs, rfl⟩
  · rintro (⟨a, b, rfl, hread, order, now, nowEpochMs, hflush⟩ | ⟨hread, order, now, ms, rfl⟩)
    · exact ⟨a, b ++ [op], by simp, hread, order, now, nowEpochMs, List.mem_append_left _ hflush⟩
    · exact ⟨ops, [_], rfl, hread, order, now, ms, List.mem_singleton_self _⟩

theorem idlePhase_spec :
    (idlePhase key ops ≠ .untouched ↔ ∃ now, .project key now ∈ ops) ∧
      (idlePhase key ops = .written ↔ ReadThenStored key ops) := by
  induction ops using List.reverseRec with
  | nil => simp [idlePhase, ReadThenStored]
  | append_singleton ops op ih =>
    obtain ⟨hread, hwritten⟩ := ih
    have hlast : (∃ now, .project key now ∈ ops ++ [op]) ↔
        idlePhase key ops ≠ .untouched ∨ ∃ now, op = .project key now := by
      rw [hread, ← exists_or]
      simp only [List.mem_append, List.mem_singleton, eq_comm]
    rw [hlast, idlePhase_concat, readThenStored_concat, ← hwritten, ← hread]
    cases op with
    | project k now =>
      cases idlePhase key ops <;> by_cases hk : k = key <;> simp [phaseStep, hk]
    | flush order now nowEpochMs stored =>
      cases idlePhase key ops <;> cases stored <;> simp [phaseStep]

/-! ### Priors -/

section Hydrate

variable (cfg : ScorecardConfig)

/-- The entry that a row becomes at the start. -/
def hydratedEntry (now : ℕ) (nowEpochMs : ℤ) (row : ScorecardRow) : Option Entry :=
  (hydrateRow cfg nowEpochMs row).map fun p =>
    { Entry.new p.1 with
      tier := p.2
      hydrated := true
      demotedSince := if p.2 = .demoted then demotedSinceOf now nowEpochMs row else none }

variable (now : ℕ)

variable (nowEpochMs : ℤ)

theorem entries_hydrateStep {sc : Scorecard} {row : ScorecardRow}
    (hrow : sc.entries row.key = none) (k : ScorecardKey) :
    (sc.hydrateStep cfg now nowEpochMs row).entries k =
      if k = row.key then hydratedEntry cfg now nowEpochMs row else sc.entries k := by
  unfold Scorecard.hydrateStep hydratedEntry
  cases hydrateRow cfg nowEpochMs row with
  | none =>
    split_ifs with hk
    · rw [hk, hrow]
      rfl
    · rfl
  | some p =>
    obtain ⟨prior, tier⟩ := p
    have hnew : sc.getOrCreate row.key prior = Entry.new prior := by
      rw [Scorecard.getOrCreate, hrow]
      rfl
    dsimp only
    rw [Scorecard.entries_set, hnew]
    rfl

theorem entries_hydrate {rows : List ScorecardRow}
    (hrows : (rows.map ScorecardRow.key).Nodup) {sc : Scorecard}
    (hsc : ∀ row ∈ rows, sc.entries row.key = none) (k : ScorecardKey) :
    (sc.hydrate cfg now nowEpochMs rows).entries k =
      match firstWith ScorecardRow.key k rows with
      | some row => hydratedEntry cfg now nowEpochMs row
      | none => sc.entries k := by
  induction rows generalizing sc with
  | nil => rfl
  | cons row rows ih =>
    rw [List.map_cons, List.nodup_cons] at hrows
    obtain ⟨hrow, hsc⟩ := List.forall_mem_cons.1 hsc
    have hstep := entries_hydrateStep cfg now nowEpochMs hrow
    have hrest : ∀ r ∈ rows, (sc.hydrateStep cfg now nowEpochMs row).entries r.key = none := by
      intro r hr
      have hne : r.key ≠ row.key := fun h => hrows.1 (h ▸ List.mem_map_of_mem hr)
      rw [hstep, if_neg hne, hsc r hr]
    rw [Scorecard.hydrate, List.foldl_cons, ← Scorecard.hydrate, ih hrows.2 hrest,
      ← List.singleton_append, firstWith_append]
    by_cases hk : row.key = k
    · have hnone : firstWith ScorecardRow.key k rows = none := firstWith_eq_none.2 (hk ▸ hrows.1)
      have hfirst : firstWith ScorecardRow.key k [row] = some row := by simp [firstWith, hk]
      rw [hnone, hfirst, hstep, if_pos hk.symm]
      rfl
    · have hfirst : firstWith ScorecardRow.key k [row] = none := by simp [firstWith, hk]
      rw [hfirst, Option.none_or, hstep, if_neg (Ne.symm hk)]

/-- A start from the table: the entry of each key is what its row becomes. -/
theorem entries_hydrate_table (table : ScorecardTable) (k : ScorecardKey) :
    (Scorecard.new.hydrate cfg now nowEpochMs table.rows).entries k =
      (firstWith ScorecardRow.key k table.rows).bind (hydratedEntry cfg now nowEpochMs) := by
  rw [entries_hydrate cfg now nowEpochMs table.unique fun _ _ => rfl]
  cases firstWith ScorecardRow.key k table.rows <;> rfl

/-- The prior of a row. -/
def rowPrior (row : ScorecardRow) : Prior where
  weight := Fp.ofNat (min row.scoreableSamples 50)
  successRate := Fp.ofNat row.successCount / Fp.ofNat row.scoreableSamples

theorem hydrateRow_eq_some {nowEpochMs : ℤ} {row : ScorecardRow} {p : Prior × OutcomeTier}
    (h : hydrateRow cfg nowEpochMs row = some p) :
    p.1 = rowPrior row ∧ row.scoreableSamples ≠ 0 ∧ (p.2 = .demoted ↔ row.tier = 1) := by
  unfold hydrateRow at h
  obtain ⟨half, -, h⟩ := Option.bind_eq_some_iff.1 h
  obtain ⟨sum, -, h⟩ := Option.bind_eq_some_iff.1 h
  split_ifs at h with hsum hzero
  obtain ⟨tier, htier, h⟩ := Option.bind_eq_some_iff.1 h
  dsimp only at h
  split_ifs at h
  cases h
  refine ⟨rfl, hzero, ?_⟩
  unfold tierOfCode at htier
  split_ifs at htier with h0 h1
  · cases htier
    simp [h0]
  · cases htier
    simp [h1]

end Hydrate

section Phases

variable {toJsonString : Json → String} {cfg : ScorecardConfig}

/-- A read of an entry without samples clears it, and marks it if there was anything to clear. -/
theorem project_of_nil {e : Entry} (h : e.ring = []) (now : ℕ) :
    (e.project cfg now).2 =
      { Entry.new e.prior with
        hydrated := e.hydrated
        dirty := e.dirty || e.tier != .healthy || e.demotedSince.isSome ||
          e.demoteTrigger.isSome || e.consecutiveFailures != 0 ||
          e.consecutiveSuccesses != 0 } := by
  have hstats : (e.stats cfg now).nScoreable = 0 := by
    rw [Entry.stats, windowStats_nScoreable, h]
    rfl
  rw [Entry.project_snd]
  unfold Entry.resetIfTtlLapsed
  rw [if_neg (by simpa using hstats), h]
  rfl

theorem cell_healthy (key : ScorecardKey) (prior : Prior) (row : ScorecardRow)
    (ops : List IdleOp) :
    ops.foldl (cellStep toJsonString cfg key)
        (some { Entry.new prior with hydrated := true }, some row) =
      (some { Entry.new prior with hydrated := true }, some row) := by
  induction ops with
  | nil => rfl
  | cons op ops ih =>
    have hstep : cellStep toJsonString cfg key
        (some { Entry.new prior with hydrated := true }, some row) op =
          (some { Entry.new prior with hydrated := true }, some row) := by
      cases op with
      | project k now =>
        simp only [cellStep, Option.map_some]
        split_ifs
        · rw [project_of_nil rfl]
          rfl
        · rfl
      | flush => rfl
    rw [List.foldl_cons, hstep, ih]

/-- The entry and the row of a key whose row is demoted: a read marks the entry, and the next
stored cycle writes a row without samples over the evidence. -/
theorem cell_demoted (key : ScorecardKey) (prior : Prior) (since : Option ℕ)
    (row : ScorecardRow) (ops : List IdleOp) :
    match idlePhase key ops with
    | .untouched => ops.foldl (cellStep toJsonString cfg key)
        (some { Entry.new prior with hydrated := true, tier := .demoted, demotedSince := since },
          some row) =
        (some { Entry.new prior with hydrated := true, tier := .demoted, demotedSince := since },
          some row)
    | .read => ops.foldl (cellStep toJsonString cfg key)
        (some { Entry.new prior with hydrated := true, tier := .demoted, demotedSince := since },
          some row) =
        (some { Entry.new prior with hydrated := true, dirty := true }, some row)
    | .written => ∃ written : ScorecardRow, written.scoreableSamples = 0 ∧
        ops.foldl (cellStep toJsonString cfg key)
          (some { Entry.new prior with hydrated := true, tier := .demoted, demotedSince := since },
            some row) =
          (some { Entry.new prior with hydrated := true }, some written) := by
  induction ops using List.reverseRec with
  | nil => rfl
  | append_singleton ops op ih =>
    rw [idlePhase_concat, List.foldl_append, List.foldl_cons, List.foldl_nil]
    cases hphase : idlePhase key ops with
    | untouched =>
      rw [hphase] at ih
      dsimp only at ih
      rw [ih]
      cases op with
      | flush order now nowEpochMs stored =>
        simp only [phaseStep, and_false, if_false, reduceCtorEq]
        rfl
      | project k now =>
        by_cases hk : key = k
        · subst hk
          simp only [phaseStep, and_self, if_true, cellStep, Option.map_some]
          rw [project_of_nil rfl]
          rfl
        · simp only [phaseStep, Ne.symm hk, false_and, if_false, cellStep, hk, Option.map_some]
    | read =>
      rw [hphase] at ih
      dsimp only at ih
      rw [ih]
      cases op with
      | flush order now nowEpochMs stored =>
        cases stored with
        | false => rfl
        | true =>
          refine ⟨_, ?_, rfl⟩
          show (Entry.stats _ cfg now).nScoreable = 0
          rw [Entry.stats, windowStats_nScoreable]
          rfl
      | project k now =>
        simp only [phaseStep, reduceCtorEq, and_false, if_false, cellStep, Option.map_some]
        split_ifs
        · rw [project_of_nil rfl]
          rfl
        · rfl
    | written =>
      rw [hphase] at ih
      obtain ⟨written, hzero, hcell⟩ := ih
      rw [hcell]
      cases op with
      | flush order now nowEpochMs stored =>
        simp only [phaseStep, reduceCtorEq, and_false, if_false]
        exact ⟨written, hzero, rfl⟩
      | project k now =>
        simp only [phaseStep, reduceCtorEq, and_false, if_false, cellStep, Option.map_some]
        refine ⟨written, hzero, ?_⟩
        split_ifs
        · rw [project_of_nil rfl]
          rfl
        · rfl

variable {key : ScorecardKey} {row : ScorecardRow}

theorem cellStep_none {c : Option Entry × Option ScorecardRow}
    (h : c.1 = none) (op : IdleOp) : cellStep toJsonString cfg key c op = c := by
  obtain ⟨o, row⟩ := c
  subst h
  cases op <;> rfl

theorem foldl_cellStep_none {c : Option Entry × Option ScorecardRow}
    (h : c.1 = none) (ops : List IdleOp) : ops.foldl (cellStep toJsonString cfg key) c = c := by
  induction ops with
  | nil => rfl
  | cons op ops ih => rw [List.foldl_cons, cellStep_none h, ih]

/-- **One key at a time**, over a run. -/
theorem cell_idleRun (hen : cfg.enabled = true) {ops : List IdleOp}
    {st : Scorecard × ScorecardTable}
    (horder : ∀ order now nowEpochMs stored, .flush order now nowEpochMs stored ∈ ops →
      order.Nodup ∧ (st.1.entries key ≠ none → key ∈ order)) :
    cell key (idleRun toJsonString cfg st ops) =
      ops.foldl (cellStep toJsonString cfg key) (cell key st) := by
  induction ops generalizing st with
  | nil => rfl
  | cons op ops ih =>
    have hstep : cell key (idleStep toJsonString cfg st op) =
        cellStep toJsonString cfg key (cell key st) op :=
      cell_idleStep toJsonString cfg hen st op fun order now ms stored h =>
        horder order now ms stored (h ▸ List.mem_cons_self)
    have hentry : (idleStep toJsonString cfg st op).1.entries key ≠ none →
        st.1.entries key ≠ none := by
      intro hsome hnone
      rw [cellStep_none hnone] at hstep
      exact hsome ((congrArg Prod.fst hstep).trans hnone)
    rw [idleRun, List.foldl_cons, ← idleRun, List.foldl_cons, ← hstep]
    refine ih fun order now ms stored h => ?_
    obtain ⟨hnodup, hmem⟩ := horder order now ms stored (List.mem_cons_of_mem _ h)
    exact ⟨hnodup, fun hsome => hmem (hentry hsome)⟩

theorem idleRun_disabled (hen : cfg.enabled = false) (st : Scorecard × ScorecardTable)
    (ops : List IdleOp) : idleRun toJsonString cfg st ops = st := by
  induction ops with
  | nil => rfl
  | cons op ops ih =>
    have hstep : idleStep toJsonString cfg st op = st := by
      cases op <;> simp [idleStep, flushScorecardOnce, Scorecard.project, hen]
    rw [idleRun, List.foldl_cons, hstep, ← idleRun, ih]

/-- The prior that a key starts with. -/
def startPrior (cfg : ScorecardConfig) (nowEpochMs : ℤ) (row : Option ScorecardRow) :
    Option Prior :=
  row.bind fun row => (hydrateRow cfg nowEpochMs row).map Prod.fst

theorem map_prior_hydrate (now : ℕ) (nowEpochMs : ℤ) (table : ScorecardTable)
    (key : ScorecardKey) :
    ((Scorecard.new.hydrate cfg now nowEpochMs table.rows).entries key).map Entry.prior =
      startPrior cfg nowEpochMs (firstWith ScorecardRow.key key table.rows) := by
  rw [entries_hydrate_table, startPrior]
  cases firstWith ScorecardRow.key key table.rows with
  | none => rfl
  | some row =>
    simp only [Option.bind_some, hydratedEntry, Option.map_map]
    rfl

theorem startPrior_eq {nowEpochMs nowEpochMs' : ℤ}
    (h : (hydrateRow cfg nowEpochMs row).isSome) (h' : (hydrateRow cfg nowEpochMs' row).isSome) :
    startPrior cfg nowEpochMs' (some row) = startPrior cfg nowEpochMs (some row) := by
  obtain ⟨p, hp⟩ := Option.isSome_iff_exists.1 h
  obtain ⟨p', hp'⟩ := Option.isSome_iff_exists.1 h'
  rw [startPrior, startPrior, Option.bind_some, Option.bind_some, hp, hp', Option.map_some,
    Option.map_some, (hydrateRow_eq_some cfg hp).1, (hydrateRow_eq_some cfg hp').1]

theorem startPrior_of_zero {nowEpochMs : ℤ} (h : row.scoreableSamples = 0) :
    startPrior cfg nowEpochMs (some row) = none := by
  rw [startPrior, Option.bind_some]
  cases hrow : hydrateRow cfg nowEpochMs row with
  | none => rfl
  | some p => exact absurd h (hydrateRow_eq_some cfg hrow).2.1

theorem startPrior_cell_iff {now₀ : ℕ} {ms₀ ms₁ : ℤ}
    (haccept : (hydrateRow cfg ms₀ row).isSome) (hfresh : (hydrateRow cfg ms₁ row).isSome)
    (ops : List IdleOp) :
    startPrior cfg ms₁ (ops.foldl (cellStep toJsonString cfg row.key)
        (hydratedEntry cfg now₀ ms₀ row, some row)).2 = startPrior cfg ms₀ (some row) ↔
      (row.tier = 1 → ¬ ReadThenStored row.key ops) := by
  obtain ⟨p, hp⟩ := Option.isSome_iff_exists.1 haccept
  obtain ⟨hprior, -, htier⟩ := hydrateRow_eq_some cfg hp
  have hsame := startPrior_eq haccept hfresh
  have hsome : startPrior cfg ms₀ (some row) = some p.1 := by
    rw [startPrior, Option.bind_some, hp]
    rfl
  cases hdemoted : p.2 with
  | healthy =>
    have hentry : hydratedEntry cfg now₀ ms₀ row =
        some { Entry.new p.1 with hydrated := true } := by
      rw [hydratedEntry, hp, Option.map_some, hdemoted]
      rfl
    have hcode : row.tier ≠ 1 := fun h => by simp [hdemoted] at htier; exact htier h
    rw [hentry, cell_healthy]
    exact ⟨fun _ h => absurd h hcode, fun _ => hsame⟩
  | demoted =>
    have hentry : hydratedEntry cfg now₀ ms₀ row =
        some { Entry.new p.1 with
          hydrated := true, tier := .demoted, demotedSince := demotedSinceOf now₀ ms₀ row } := by
      rw [hydratedEntry, hp, Option.map_some, hdemoted]
      rfl
    have hcode : row.tier = 1 := htier.1 hdemoted
    have hcell := @cell_demoted toJsonString cfg row.key p.1 (demotedSinceOf now₀ ms₀ row) row ops
    obtain ⟨-, hwritten⟩ := idlePhase_spec row.key ops
    rw [hentry, ← hwritten]
    cases hphase : idlePhase row.key ops with
    | untouched =>
      rw [hphase] at hcell
      dsimp only at hcell
      rw [hcell]
      exact ⟨fun _ _ => nofun, fun _ => hsame⟩
    | read =>
      rw [hphase] at hcell
      dsimp only at hcell
      rw [hcell]
      exact ⟨fun _ _ => nofun, fun _ => hsame⟩
    | written =>
      rw [hphase] at hcell
      obtain ⟨written, hzero, hcell⟩ := hcell
      rw [hcell, startPrior_of_zero hzero, hsome]
      exact ⟨nofun, fun h => absurd rfl (h hcode)⟩

/-- **When the priors survive an idle restart**: iff no demoted key is read before a cycle of the
flusher that the store takes. -/
theorem restart_priors_iff {table : ScorecardTable} {now₀ now₁ : ℕ} {ms₀ ms₁ : ℤ}
    (haccept : ∀ row ∈ table.rows, (hydrateRow cfg ms₀ row).isSome)
    (hfresh : ∀ row ∈ table.rows, (hydrateRow cfg ms₁ row).isSome) {ops : List IdleOp}
    (horder : ∀ order now nowEpochMs stored, .flush order now nowEpochMs stored ∈ ops →
      order.Perm (table.rows.map ScorecardRow.key)) :
    (∀ key, ((Scorecard.new.hydrate cfg now₁ ms₁ (idleRun toJsonString cfg
          (Scorecard.new.hydrate cfg now₀ ms₀ table.rows, table) ops).2.rows).entries key).map
            Entry.prior =
        ((Scorecard.new.hydrate cfg now₀ ms₀ table.rows).entries key).map Entry.prior) ↔
      ∀ row ∈ table.rows, row.tier = 1 → cfg.enabled = true → ¬ ReadThenStored row.key ops := by
  simp only [map_prior_hydrate]
  cases hen : cfg.enabled with
  | false =>
    rw [idleRun_disabled hen]
    refine ⟨(fun _ row _ _ hon => by cases hon), fun _ key => ?_⟩
    cases hrow : firstWith ScorecardRow.key key table.rows with
    | none => rfl
    | some row =>
      obtain ⟨hmem, -⟩ := firstWith_eq_some hrow
      exact startPrior_eq (haccept row hmem) (hfresh row hmem)
  | true =>
    set start := (Scorecard.new.hydrate cfg now₀ ms₀ table.rows, table) with hstart
    have hcell (key : ScorecardKey) :
        cell key (idleRun toJsonString cfg start ops) =
          ops.foldl (cellStep toJsonString cfg key) (cell key start) := by
      refine cell_idleRun hen fun order now ms stored h => ?_
      have hperm := horder order now ms stored h
      refine ⟨hperm.nodup_iff.2 table.unique, fun hsome => hperm.mem_iff.2 ?_⟩
      by_contra hmem
      rw [hstart, entries_hydrate_table, firstWith_eq_none.2 hmem] at hsome
      exact hsome rfl
    have hentry (key : ScorecardKey) : start.1.entries key =
        (firstWith ScorecardRow.key key table.rows).bind (hydratedEntry cfg now₀ ms₀) :=
      entries_hydrate_table cfg now₀ ms₀ table key
    have hkey (row : ScorecardRow) (hrow : row ∈ table.rows) :
        startPrior cfg ms₁ (firstWith ScorecardRow.key row.key
            (idleRun toJsonString cfg start ops).2.rows) =
          startPrior cfg ms₀ (firstWith ScorecardRow.key row.key table.rows) ↔
          (row.tier = 1 → ¬ ReadThenStored row.key ops) := by
      have hfirst := firstWith_of_mem table.unique hrow
      have hbefore : cell row.key start = (hydratedEntry cfg now₀ ms₀ row, some row) := by
        rw [cell, hentry, hfirst]
        rfl
      have hafter := congrArg Prod.snd (hcell row.key)
      rw [hbefore] at hafter
      have hrowOf : firstWith ScorecardRow.key row.key
          (idleRun toJsonString cfg start ops).2.rows = _ := hafter
      rw [hrowOf, hfirst]
      exact startPrior_cell_iff (haccept row hrow) (hfresh row hrow) ops
    constructor
    · intro hall row hrow htier _
      exact (hkey row hrow).1 (hall row.key) htier
    · intro hall key
      cases hrow : firstWith ScorecardRow.key key table.rows with
      | none =>
        have hbefore : cell key start = (none, none) := by
          rw [cell, hentry, hrow]
          rfl
        have hafter := congrArg Prod.snd (hcell key)
        rw [hbefore, foldl_cellStep_none rfl] at hafter
        have hrowOf : firstWith ScorecardRow.key key
            (idleRun toJsonString cfg start ops).2.rows = none := hafter
        rw [hrowOf]
        rfl
      | some row =>
        obtain ⟨hmem, rfl⟩ := firstWith_eq_some hrow
        rw [← hrow]
        exact (hkey row hmem).2 fun htier => hall row hmem htier rfl

end Phases

/-- Nine successes of ten, under either tier. -/
def sampleRow (targetId : String) (tier : ℕ) : ScorecardRow where
  targetId := targetId
  outcomeClass := "any"
  scoreableSamples := 10
  successCount := 9
  truncatedCount := 0
  targetFailCount := 1
  p50LatencyMs := 20
  p95LatencyMs := 90
  costPerSuccessMicros := 0
  errorHistogram := "null"
  consecutiveFailures := 0
  tier := tier
  demotedSinceMs := none
  updatedAtMs := 1000
  schemaVer := 1

def sampleTable : ScorecardTable := ⟨[sampleRow "a" 0, sampleRow "b" 1], by decide⟩

/-- A cycle of the flusher before the reads, and one that fails behind them: nothing is lost. -/
theorem restart_priors_kept :
    (∀ row ∈ sampleTable.rows,
        (hydrateRow {} 1000 row).isSome ∧ (hydrateRow {} 2000 row).isSome) ∧
      ∀ key, ((Scorecard.new.hydrate {} 0 2000 (idleRun (fun _ => "null") {}
          (Scorecard.new.hydrate {} 0 1000 sampleTable.rows, sampleTable)
          [.flush [("a", "any"), ("b", "any")] 0 1500 true, .project ("b", "any") 0,
            .project ("a", "any") 0,
            .flush [("a", "any"), ("b", "any")] 0 1600 false]).2.rows).entries key).map
            Entry.prior =
        ((Scorecard.new.hydrate {} 0 1000 sampleTable.rows).entries key).map Entry.prior := by
  have hrows : ∀ row ∈ sampleTable.rows,
      (hydrateRow {} 1000 row).isSome ∧ (hydrateRow {} 2000 row).isSome := by decide +kernel
  refine ⟨hrows, (restart_priors_iff (fun row hrow => (hrows row hrow).1)
    (fun row hrow => (hrows row hrow).2) ?_).2 ?_⟩
  · intro order now nowEpochMs stored h
    simp only [List.mem_cons, IdleOp.flush.injEq, reduceCtorEq, List.not_mem_nil, or_false,
      false_or] at h
    rcases h with ⟨rfl, -⟩ | ⟨rfl, -⟩ <;> exact List.Perm.refl _
  · intro row _ _ _
    rw [← (idlePhase_spec row.key _).2]
    simp only [idlePhase, List.foldl_cons, List.foldl_nil, phaseStep]
    split_ifs <;> simp_all

/-- A demoted key is read, and the flusher writes a row without samples over its evidence. -/
theorem restart_priors_lost :
    (∀ row ∈ sampleTable.rows,
        (hydrateRow {} 1000 row).isSome ∧ (hydrateRow {} 2000 row).isSome) ∧
      ¬ ∀ key, ((Scorecard.new.hydrate {} 0 2000 (idleRun (fun _ => "null") {}
          (Scorecard.new.hydrate {} 0 1000 sampleTable.rows, sampleTable)
          [.project ("b", "any") 0,
            .flush [("a", "any"), ("b", "any")] 0 1500 true]).2.rows).entries key).map
            Entry.prior =
        ((Scorecard.new.hydrate {} 0 1000 sampleTable.rows).entries key).map Entry.prior := by
  refine ⟨by decide +kernel, fun h => ?_⟩
  have hkey := congrArg Option.isSome (h ("b", "any"))
  rw [map_prior_hydrate, Option.isSome_map] at hkey
  exact absurd hkey (by decide +kernel)

end Switchback
