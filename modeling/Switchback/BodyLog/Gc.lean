import Switchback.BodyLog.Backup

/-!
# Retention of the body index

`gc` forgets the index rows of old days whose archive partition is gone, and then drains the spool.
A day may be forgotten only when backup receipts prove that its segments were exported; that proof
is per segment, while the deletion is per day.
-/

namespace Switchback

namespace BodyLog

open Lib

structure GcOptions where
  keep_days : ℕ
  confirm : Bool
  drain_only : Bool
  batch_size : ℕ

/-- `GcReport`, without the drain counts. -/
structure GcReport where
  refused : Option String
  dry_run : Bool
  drain_only : Bool
  keep_days : ℕ
  cutoff_day : ℤ
  archive_available : Bool
  candidate_days : List (ℤ × ℕ)
  events_deleted : ℕ
  blobs_deleted : ℕ

/-- A machine integer of 64 bits, wrapped around. -/
def wrapI64 (z : ℤ) : ℤ := Word.toI64 (Word.toU64 z)

/-- `retention_cutoff_ms`: day starts strictly below this are candidates. -/
def retentionCutoffMs (now : ℤ) (keep_days : ℕ) : ℤ :=
  wrapI64 (dayFloorMs now - wrapI64 (Word.toI64 keep_days * dayMs))

/-- The day starts from `day_start` up to the cutoff. -/
def walkDays (cutoff : ℤ) : ℕ → ℤ → List ℤ
  | 0, _ => []
  | n + 1, day_start =>
    if day_start < cutoff then day_start :: walkDays cutoff n (day_start + dayMs) else []

/-- `SELECT MIN(observed_at_unix_ms) FROM body_events`. -/
def minObserved (idx : Index) : Option ℤ :=
  (idx.events.rows.map BodyRecord.observed_at_unix_ms).min?

/-- A row that is still in the spool. -/
def inSpool (storage : Storage) : Bool := storage = .spool ∨ storage = .spoolSegment

/-- An event of a day outside the spool. -/
def dueOn (day_start : ℤ) (e : BodyRecord) : Bool :=
  day_start ≤ e.observed_at_unix_ms ∧ e.observed_at_unix_ms < day_start + dayMs ∧
    !inSpool e.storage

/-- The event rows of a day outside the spool. -/
def eventsOn (idx : Index) (day_start : ℤ) : List BodyRecord :=
  idx.events.rows.filter (dueOn day_start)

/-- `collect_candidate_days`: the days from the oldest event to the cutoff whose archive partition
is gone. -/
def collectCandidateDays (s : Store) (cutoff : ℤ) : List ℤ :=
  match minObserved s.index with
  | none => []
  | some min_obs =>
    (walkDays cutoff (((cutoff - dayFloorMs min_obs) / dayMs).toNat + 1)
      (dayFloorMs min_obs)).filter fun d => d ∉ s.dayDirs

/-- The days of the report: candidates with rows. -/
def reportDays (s : Store) (days : List ℤ) : List (ℤ × ℕ) :=
  (days.map fun d => (d, (eventsOn s.index d).length)).filter fun p => 0 < p.2

/-- A segment row whose records reach into a day. -/
def SegmentRow.covers (row : SegmentRow) (day_start : ℤ) : Bool :=
  row.first_observed_at_unix_ms < day_start + dayMs ∧ day_start ≤ row.last_observed_at_unix_ms

/-- The query of `filter_receipt_gated_candidate_days`: the checksums of the segments that reach
into a day.  A segment without a checksum is not among them. -/
def coveringHashes (idx : Index) (day_start : ℤ) : List Sha :=
  (idx.segments.rows.filter fun row => row.covers day_start).filterMap fun row =>
    row.segment_sha256.filter fun sha => sha ≠ ""

def filterReceiptGatedCandidateDays (idx : Index) (verified : List Sha) (days : List ℤ) : List ℤ :=
  days.filter fun d =>
    ((coveringHashes idx d).all fun sha => verified.contains sha) ∧ coveringHashes idx d ≠ []

/-- The deletion loop of one day, a bounded batch at a time. -/
def deleteBatches (batch : ℕ) (day_start : ℤ) : ℕ → Index → Index × ℕ
  | 0, idx => (idx, 0)
  | n + 1, idx =>
    let chosen := ((eventsOn idx day_start).take batch).map BodyRecord.event_id
    let idx' :=
      { idx with events := idx.events.deleteWhere fun e => chosen.contains e.event_id }
    if chosen.length < batch then (idx', chosen.length)
    else
      let (idx'', total) := deleteBatches batch day_start n idx'
      (idx'', chosen.length + total)

def deleteCandidateEvents (batch : ℕ) : List ℤ → Index → Index × ℕ
  | [], idx => (idx, 0)
  | d :: days, idx =>
    let (idx', total) := deleteBatches batch d ((eventsOn idx d).length + 1) idx
    let (idx'', total') := deleteCandidateEvents batch days idx'
    (idx'', total + total')

/-- The blob rows `delete_candidate_blobs` removes: archive rows of a forgotten day that no event
refers to. -/
def blobForgotten (idx : Index) (days : List ℤ) (b : BlobRow) : Bool :=
  (b.storage = .archive ∨ b.storage = .archiveSegment) ∧
    days.contains (dayFloorMs b.created_at_unix_ms) ∧
    !(idx.events.rows.any fun e => e.body_sha256 = b.body_sha256)

/-- `delete_candidate_blobs`.  The rows are visited in ranges of row ids, which bounds a query and
leaves out none.  A batch of `2^63` or more is a negative range: no row is ever in it, and the loop
does not end. -/
def deleteCandidateBlobs (batch : ℕ) (days : List ℤ) (idx : Index) : Index × Option ℕ :=
  if 2 ^ 63 ≤ batch then (idx, none)
  else
    ({ idx with blobs := idx.blobs.deleteWhere (blobForgotten idx days) },
      some (idx.blobs.rows.filter (blobForgotten idx days)).length)

/-- The retention half of `gc`: the index without the forgotten rows, and how many there were. -/
def forgetDays (batch : ℕ) (days : List ℤ) (idx : Index) : Index × Option (ℕ × ℕ) :=
  let (idx', events) := deleteCandidateEvents batch days idx
  let (idx'', blobs) := deleteCandidateBlobs batch days idx'
  (idx'', blobs.map fun n => (events, n))

/-- `gc`, on a store whose logger has no open spool segment.  There is no result where the pass
does not end. -/
def gc (env : Env) (opts : GcOptions) (s : Store) : Store × Option (Except Error GcReport) :=
  let cutoff := retentionCutoffMs env.now opts.keep_days
  let report : GcReport :=
    { refused := none
      dry_run := !opts.confirm
      drain_only := opts.drain_only
      keep_days := opts.keep_days
      cutoff_day := dayFloorMs cutoff
      archive_available := env.archive_available
      candidate_days := []
      events_deleted := 0
      blobs_deleted := 0 }
  if !env.archive_available then
    (s, some (.ok { report with refused := some "archive root not mounted; refusing GC/drain" }))
  else
    let days := if opts.drain_only then [] else collectCandidateDays s cutoff
    let report := { report with candidate_days := reportDays s days }
    if !opts.confirm then (s, some (.ok report))
    else if days = [] then
      match drainSpool env s with
      | (s', none) => (s', some (.ok report))
      | (s', some e) => (s', some (.error e))
    else
      match verifiedReceiptState env.now s with
      | .error e => (s, some (.error e))
      | .ok (verified, _) =>
        match forgetDays (max opts.batch_size 1)
            (filterReceiptGatedCandidateDays s.index verified days) s.index with
        | (idx, none) => ({ s with index := idx }, none)
        | (idx, some (events, blobs)) =>
          match drainSpool env { s with index := idx } with
          | (s', none) =>
            (s', some (.ok { report with events_deleted := events, blobs_deleted := blobs }))
          | (s', some e) => (s', some (.error e))

variable {d : ℤ} {batch : ℕ}

theorem mem_walkDays {cutoff : ℤ} {n : ℕ} {d' : ℤ} :
    d' ∈ walkDays cutoff n d ↔ ∃ i : ℕ, i < n ∧ d' = d + i * dayMs ∧ d' < cutoff := by
  have hpos : (0 : ℤ) < dayMs := by decide
  induction n generalizing d with
  | zero => simp [walkDays]
  | succ n ih =>
    rw [walkDays]
    split_ifs with hlt
    · simp only [List.mem_cons, ih]
      constructor
      · rintro (rfl | ⟨i, hi, rfl, hi'⟩)
        · exact ⟨0, by omega, by simp, hlt⟩
        · exact ⟨i + 1, by omega, by unfold dayMs; omega, hi'⟩
      · rintro ⟨i, hi, rfl, hi'⟩
        cases i with
        | zero => exact Or.inl (by simp)
        | succ i => exact Or.inr ⟨i, by omega, by unfold dayMs; omega, hi'⟩
    · simp only [List.not_mem_nil, false_iff]
      rintro ⟨i, -, rfl, hi'⟩
      unfold dayMs at hi'
      omega

theorem exists_add_days {d' : ℤ} (hd : dayFloorMs d = d) (hd' : dayFloorMs d' = d')
    (h : d ≤ d') : ∃ i : ℕ, d' = d + i * dayMs := by
  refine ⟨((d' - d) / dayMs).toNat, ?_⟩
  unfold dayFloorMs dayMs at *
  omega

theorem dayFloorMs_add_days (hd : dayFloorMs d = d) (i : ℕ) :
    dayFloorMs (d + i * dayMs) = d + i * dayMs := by
  unfold dayFloorMs dayMs at *
  omega

/-- The candidate days: day starts from the oldest event's on, below the cutoff, without an
archive partition. -/
theorem mem_collectCandidateDays {s : Store} {cutoff : ℤ} :
    d ∈ collectCandidateDays s cutoff ↔
      (∃ e ∈ s.index.events.rows, dayFloorMs e.observed_at_unix_ms ≤ d) ∧ dayFloorMs d = d ∧
        d < cutoff ∧ d ∉ s.dayDirs := by
  rw [collectCandidateDays, minObserved]
  cases hmin : (s.index.events.rows.map BodyRecord.observed_at_unix_ms).min? with
  | none =>
    rw [List.min?_eq_none_iff, List.map_eq_nil_iff] at hmin
    simp [hmin]
  | some m =>
    obtain ⟨hmem, hle⟩ := List.min?_eq_some_iff.1 hmin
    obtain ⟨e₀, he₀, rfl⟩ := List.mem_map.1 hmem
    simp only [List.mem_filter, mem_walkDays, decide_eq_true_eq]
    constructor
    · rintro ⟨⟨i, -, rfl, hlt⟩, hdir⟩
      refine ⟨⟨e₀, he₀, ?_⟩, dayFloorMs_add_days (dayFloorMs_dayFloorMs _) i, hlt, hdir⟩
      unfold dayMs
      omega
    · rintro ⟨⟨e, he, hday⟩, hd, hlt, hdir⟩
      have hfirst : dayFloorMs e₀.observed_at_unix_ms ≤ dayFloorMs e.observed_at_unix_ms := by
        have := hle _ (List.mem_map_of_mem he)
        unfold dayFloorMs dayMs
        omega
      obtain ⟨i, rfl⟩ := exists_add_days (dayFloorMs_dayFloorMs _) hd (hfirst.trans hday)
      refine ⟨⟨i, ?_, rfl, hlt⟩, hdir⟩
      have hround : (i : ℤ) ≤ (cutoff - dayFloorMs e₀.observed_at_unix_ms) / dayMs := by
        rw [Int.le_ediv_iff_mul_le (by decide)]
        omega
      omega

/-! ### Which rows -/

theorem deleteBatches_fst (hbatch : 1 ≤ batch) (d : ℤ) (n : ℕ) (idx : Index)
    (hn : (eventsOn idx d).length < n) :
    (deleteBatches batch d n idx).1 =
      { idx with events := idx.events.deleteWhere (dueOn d) } := by
  induction n generalizing idx with
  | zero => omega
  | succ n ih =>
    set chosen := ((eventsOn idx d).take batch).map BodyRecord.event_id with hchosen
    have hdue : ∀ e ∈ idx.events.rows, chosen.contains e.event_id = true → dueOn d e = true := by
      intro e he hin
      rw [List.contains_iff_mem, hchosen, List.mem_map] at hin
      obtain ⟨e', he', hid⟩ := hin
      have hmem := List.mem_filter.1 (List.mem_of_mem_take he')
      rw [← KeyedLog.eq_of_mem hmem.1 he hid]
      exact hmem.2
    rw [deleteBatches]
    simp only [← hchosen]
    split_ifs with hlast
    · have hall : (eventsOn idx d).length ≤ batch := by
        rw [hchosen, List.length_map, List.length_take] at hlast
        omega
      have hcongr : idx.events.deleteWhere (fun e => chosen.contains e.event_id) =
          idx.events.deleteWhere (dueOn d) := by
        refine KeyedLog.deleteWhere_congr fun e he => Bool.eq_iff_iff.2 ⟨hdue e he, fun h => ?_⟩
        rw [List.contains_iff_mem, hchosen, List.take_of_length_le hall]
        exact List.mem_map_of_mem (List.mem_filter.2 ⟨he, h⟩)
      rw [hcongr]
    · -- a full batch holds at least one event of the day, so the day has fewer left
      have hleft : (idx.events.deleteWhere fun e => chosen.contains e.event_id).rows.filter
          (dueOn d) = (eventsOn idx d).filter fun e => !chosen.contains e.event_id := by
        rw [KeyedLog.deleteWhere, eventsOn, List.filter_filter, List.filter_filter]
        exact List.filter_congr fun e _ => Bool.and_comm _ _
      have hfewer : ((eventsOn idx d).filter fun e => !chosen.contains e.event_id).length < n := by
        have hfull : ((eventsOn idx d).take batch).length ≠ 0 := by
          rw [hchosen, List.length_map] at hlast
          omega
        obtain ⟨e, he⟩ := List.exists_mem_of_length_pos (Nat.pos_of_ne_zero hfull)
        have hgone : chosen.contains e.event_id = true :=
          List.contains_iff_mem.2 (List.mem_map_of_mem he)
        have hlt : ((eventsOn idx d).filter fun e => !chosen.contains e.event_id).length <
            (eventsOn idx d).length :=
          List.length_filter_lt_length_iff_exists.2 ⟨e, List.mem_of_mem_take he, by rw [hgone]; decide⟩
        omega
      rw [← hleft] at hfewer
      refine (ih { idx with events := idx.events.deleteWhere (chosen.contains ·.event_id) }
        hfewer).trans ?_
      have hmerge : (idx.events.deleteWhere fun e => chosen.contains e.event_id).deleteWhere
          (dueOn d) = idx.events.deleteWhere (dueOn d) := by
        rw [KeyedLog.deleteWhere_deleteWhere]
        refine KeyedLog.deleteWhere_congr fun e he => ?_
        by_cases hin : chosen.contains e.event_id = true
        · rw [hdue e he hin, Bool.or_true]
        · rw [Bool.eq_false_iff.2 hin, Bool.false_or]
      exact congrArg (fun events => { idx with events := events }) hmerge

theorem deleteCandidateEvents_fst (hbatch : 1 ≤ batch) (days : List ℤ) (idx : Index) :
    (deleteCandidateEvents batch days idx).1 =
      { idx with events := idx.events.deleteWhere fun e => days.any fun d => dueOn d e } := by
  induction days generalizing idx with
  | nil => simp [deleteCandidateEvents]
  | cons d days ih =>
    rw [deleteCandidateEvents]
    simp only [deleteBatches_fst hbatch d _ idx (Nat.lt_succ_self _), ih,
      KeyedLog.deleteWhere_deleteWhere, List.any_cons]

theorem forgetDays_events (hbatch : 1 ≤ batch) (days : List ℤ) (idx : Index) :
    (forgetDays batch days idx).1.events =
      idx.events.deleteWhere fun e => days.any fun d => dueOn d e := by
  have h := deleteCandidateEvents_fst hbatch days idx
  unfold forgetDays deleteCandidateBlobs
  split_ifs <;> simp [h]

/-- A body that no event outside the forgotten days refers to. -/
def Unreferenced (idx : Index) (days : List ℤ) (sha : Sha) : Prop :=
  ∀ e ∈ idx.events.rows, e.body_sha256 = sha → ∃ d ∈ days, dueOn d e = true

/-- The archive row of a body on a forgotten day. -/
def BlobDue (idx : Index) (days : List ℤ) (b : BlobRow) : Prop :=
  (b.storage = .archive ∨ b.storage = .archiveSegment) ∧ dayFloorMs b.created_at_unix_ms ∈ days ∧
    Unreferenced idx days b.body_sha256

theorem mem_forgetDays_blobs (hbatch : 1 ≤ batch) {days : List ℤ} {idx : Index} {b : BlobRow} :
    b ∈ (forgetDays batch days idx).1.blobs.rows ↔
      b ∈ idx.blobs.rows ∧ (batch < 2 ^ 63 → ¬ BlobDue idx days b) := by
  have hevents := deleteCandidateEvents_fst hbatch days idx
  unfold forgetDays deleteCandidateBlobs
  by_cases hlarge : 2 ^ 63 ≤ batch
  · have hsmall : ¬ batch < 2 ^ 63 := by omega
    simp only [hlarge, if_true, hsmall, false_imp_iff, and_true, hevents]
  · have hsmall : batch < 2 ^ 63 := by omega
    have hdue : blobForgotten (deleteCandidateEvents batch days idx).1 days b = false ↔
        ¬ BlobDue idx days b := by
      have href : ((deleteCandidateEvents batch days idx).1.events.rows.any
          fun e => e.body_sha256 = b.body_sha256) = false ↔
          Unreferenced idx days b.body_sha256 := by
        simp only [hevents, List.any_eq_false, KeyedLog.mem_deleteWhere, decide_eq_true_eq,
          Unreferenced]
        refine forall_congr' fun e => ?_
        have hnone : (∀ d ∈ days, ¬ dueOn d e = true) ↔ ¬ ∃ d ∈ days, dueOn d e = true := by
          simp only [not_exists, not_and]
        rw [hnone]
        constructor
        · intro h he hb
          by_contra hkept
          exact h ⟨he, hkept⟩ hb
        · rintro h ⟨he, hkept⟩ hb
          exact hkept (h he hb)
      rw [← Bool.not_eq_true, not_iff_not, blobForgotten, decide_eq_true_eq, Bool.not_eq_true',
        href, List.contains_iff_mem]
      rfl
    simp only [hlarge, if_false, hsmall, forall_const, KeyedLog.mem_deleteWhere, hdue]
    rw [hevents]

/-- The days that a confirmed pass forgets. -/
def forgottenDays (env : Env) (opts : GcOptions) (verified : List Sha) (s : Store) : List ℤ :=
  filterReceiptGatedCandidateDays s.index verified
    (collectCandidateDays s (retentionCutoffMs env.now opts.keep_days))

theorem forgottenDays_lt {env : Env} {opts : GcOptions} {verified : List Sha} {s : Store}
    (hd : d ∈ forgottenDays env opts verified s) :
    dayFloorMs d = d ∧ d < retentionCutoffMs env.now opts.keep_days := by
  obtain ⟨-, hfloor, hlt, -⟩ := mem_collectCandidateDays.1 (List.mem_filter.1 hd).1
  exact ⟨hfloor, hlt⟩

theorem forgottenDays_verified {env : Env} {opts : GcOptions} {verified : List Sha} {s : Store}
    (hd : d ∈ forgottenDays env opts verified s) {row : SegmentRow}
    (hrow : row ∈ s.index.segments.rows) (hcovers : row.covers d = true) {sha : Sha}
    (hsha : row.segment_sha256 = some sha) (hne : sha ≠ "") : sha ∈ verified := by
  have hall := (List.mem_filter.1 hd).2
  simp only [decide_eq_true_eq] at hall
  have hmem : sha ∈ coveringHashes s.index d := by
    refine List.mem_filterMap.2 ⟨row, List.mem_filter.2 ⟨hrow, hcovers⟩, ?_⟩
    rw [hsha, Option.filter_eq_some_iff]
    exact ⟨rfl, by simpa using hne⟩
  simpa using List.all_eq_true.1 hall.1 sha hmem

/-- When a pass deletes rows at all: confirmed, on a mounted archive, not for the drain only, and
with readable receipts. -/
def Deletes (env : Env) (opts : GcOptions) (s : Store) (verified : List Sha) : Prop :=
  opts.confirm = true ∧ env.archive_available = true ∧ opts.drain_only = false ∧
    ∃ g, verifiedReceiptState env.now s = .ok (verified, g)

theorem forgetDays_nil (batch : ℕ) (idx : Index) : (forgetDays batch [] idx).1 = idx := by
  have hnone : blobForgotten idx [] = fun _ => false := by
    funext b
    simp [blobForgotten]
  unfold forgetDays deleteCandidateBlobs
  simp only [deleteCandidateEvents, hnone, KeyedLog.deleteWhere_false]
  split_ifs <;> rfl

theorem gc_deletes {env : Env} {opts : GcOptions} {s : Store} {verified : List Sha}
    (h : Deletes env opts s verified) :
    SameRows { s with index := (forgetDays (max opts.batch_size 1)
      (forgottenDays env opts verified s) s.index).1 } (gc env opts s).1 := by
  obtain ⟨hconfirm, harchive, hfull, g, hreceipts⟩ := h
  unfold gc
  simp only [harchive, hconfirm, hfull, hreceipts, Bool.not_true, Bool.false_eq_true, if_false]
  split_ifs with hdays
  · have hnone : forgottenDays env opts verified s = [] := by
      rw [forgottenDays, hdays]
      rfl
    rw [hnone, forgetDays_nil]
    have hdrain := drainSpool_sameRows env s
    split <;> rename_i hout <;> rwa [hout] at hdrain
  · rw [← forgottenDays]
    generalize forgetDays (max opts.batch_size 1) (forgottenDays env opts verified s) s.index = out
    obtain ⟨idx, _ | ⟨events, blobs⟩⟩ := out
    · exact .refl _
    · have hdrain := drainSpool_sameRows env { s with index := idx }
      dsimp only
      split <;> rename_i hout <;> rwa [hout] at hdrain

theorem gc_keeps {env : Env} {opts : GcOptions} {s : Store}
    (h : ∀ verified, ¬ Deletes env opts s verified) : SameRows s (gc env opts s).1 := by
  have hdrain := drainSpool_sameRows env s
  unfold gc
  by_cases harchive : env.archive_available = true
  · by_cases hconfirm : opts.confirm = true
    · simp only [harchive, hconfirm, Bool.not_true, Bool.false_eq_true, if_false]
      split_ifs with hdrainOnly hdays hdays
      · split <;> rename_i hout <;> rwa [hout] at hdrain
      · exact absurd rfl hdays
      · split <;> rename_i hout <;> rwa [hout] at hdrain
      · cases hreceipts : verifiedReceiptState env.now s with
        | error e => exact .refl s
        | ok v =>
          refine absurd ⟨hconfirm, harchive, ?_, v.2, hreceipts⟩ (h v.1)
          simpa using hdrainOnly
    · simp only [harchive, hconfirm, Bool.not_true, Bool.not_false, Bool.false_eq_true, if_false,
        if_true]
      exact .refl s
  · simp only [harchive, Bool.not_false, if_true]
    exact .refl s

/-! ### The export proof -/

/-- A checksum named in a stored receipt that passes its checks. -/
def NamedInReceipt (now : ℤ) (s : Store) (sha : Sha) : Prop :=
  ∃ p ∈ s.receipts.entries, validateStoredReceipt now p.2 = .ok () ∧
    sha ∈ p.2.segments.map ReceiptItem.segment_sha256

theorem mem_verifiedReceiptState {now : ℤ} {s : Store} {verified : List Sha} {g : ℕ}
    (h : verifiedReceiptState now s = .ok (verified, g)) {sha : Sha} :
    sha ∈ verified ↔ NamedInReceipt now s sha := by
  obtain ⟨receipts, hreceipts, heq⟩ := map_eq_ok_iff.1 h
  obtain ⟨rfl, -⟩ := Prod.mk.inj heq
  obtain ⟨hvalid, rfl⟩ := mapM_checked_eq_ok_iff.1 hreceipts
  rw [receiptHashes, List.mem_flatMap]
  constructor
  · rintro ⟨r, hr, hsha⟩
    obtain ⟨p, hp, rfl⟩ := List.mem_map.1 hr
    exact ⟨p, hp, hvalid p hp, hsha⟩
  · rintro ⟨p, hp, -, hsha⟩
    exact ⟨p.2, List.mem_map_of_mem hp, hsha⟩

/-- The segment at a path is named in a verified receipt. -/
def BackedUp (now : ℤ) (s : Store) (path : Path) : Prop :=
  ∃ row ∈ s.index.segments.rows, row.segment_path = path ∧
    ∃ sha, row.segment_sha256 = some sha ∧ sha ≠ "" ∧ NamedInReceipt now s sha

/-- A pass forgets no evidence that was not backed up: every event row and every body row that it
deletes is from a day before the cutoff, and its segment is backed up. -/
def ForgetsOnlyBackedUp (env : Env) (opts : GcOptions) (s : Store) : Prop :=
  (∀ e ∈ s.index.events.rows,
    e.event_id ∉ (gc env opts s).1.index.events.rows.map BodyRecord.event_id →
      dayFloorMs e.observed_at_unix_ms < retentionCutoffMs env.now opts.keep_days ∧
        BackedUp env.now s e.archive_path) ∧
  (∀ b ∈ s.index.blobs.rows,
    b.body_sha256 ∉ (gc env opts s).1.index.blobs.rows.map BlobRow.body_sha256 →
      dayFloorMs b.created_at_unix_ms < retentionCutoffMs env.now opts.keep_days ∧
        BackedUp env.now s b.archive_path)

/-- The segment at a path has a checksum, and it reaches into the day or is verified itself: the
segments that the query of a day sees, and those that need not be seen. -/
def Accounted (idx : Index) (verified : List Sha) (d : ℤ) (path : Path) : Prop :=
  ∃ row ∈ idx.segments.rows, row.segment_path = path ∧
    ∃ sha, row.segment_sha256 = some sha ∧ sha ≠ "" ∧ (row.covers d = true ∨ sha ∈ verified)

/-- Every row of a forgotten day lies in an accounted segment. -/
def DaysAccounted (env : Env) (opts : GcOptions) (s : Store) (verified : List Sha) : Prop :=
  ∀ d ∈ forgottenDays env opts verified s,
    (∀ e ∈ s.index.events.rows, dueOn d e = true →
      Accounted s.index verified d e.archive_path) ∧
    (max opts.batch_size 1 < 2 ^ 63 → ∀ b ∈ s.index.blobs.rows,
      dayFloorMs b.created_at_unix_ms = d →
      BlobDue s.index (forgottenDays env opts verified s) b →
      Accounted s.index verified d b.archive_path)

section Forgets

variable {env : Env} {opts : GcOptions} {s : Store} {verified : List Sha}

/-- On a forgotten day, to be accounted for is to be backed up. -/
theorem accounted_iff_backedUp {g : ℕ} (hreceipts : verifiedReceiptState env.now s = .ok (verified, g))
    {d : ℤ} (hd : d ∈ forgottenDays env opts verified s) {path : Path} :
    Accounted s.index verified d path ↔ BackedUp env.now s path := by
  constructor
  · rintro ⟨row, hrow, hpath, sha, hsha, hne, hsee⟩
    have hverified : sha ∈ verified := by
      rcases hsee with hcovers | hverified
      · exact forgottenDays_verified hd hrow hcovers hsha hne
      · exact hverified
    exact ⟨row, hrow, hpath, sha, hsha, hne, (mem_verifiedReceiptState hreceipts).1 hverified⟩
  · rintro ⟨row, hrow, hpath, sha, hsha, hne, hnamed⟩
    exact ⟨row, hrow, hpath, sha, hsha, hne,
      Or.inr ((mem_verifiedReceiptState hreceipts).2 hnamed)⟩

theorem event_deleted_iff (h : Deletes env opts s verified) {e : BodyRecord}
    (he : e ∈ s.index.events.rows) :
    e.event_id ∉ (gc env opts s).1.index.events.rows.map BodyRecord.event_id ↔
      ∃ d ∈ forgottenDays env opts verified s, dueOn d e = true := by
  rw [(gc_deletes h).1, forgetDays_events (by omega), ← not_iff_not, not_not]
  constructor
  · intro hin hdue
    obtain ⟨e', he', hid⟩ := List.mem_map.1 hin
    obtain ⟨hmem, hkept⟩ := KeyedLog.mem_deleteWhere.1 he'
    rw [KeyedLog.eq_of_mem hmem he hid, List.any_eq_true.2 hdue] at hkept
    cases hkept
  · intro hdue
    refine List.mem_map_of_mem (KeyedLog.mem_deleteWhere.2 ⟨he, ?_⟩)
    rwa [← Bool.not_eq_true, List.any_eq_true]

theorem blob_deleted_iff (h : Deletes env opts s verified) {b : BlobRow}
    (hb : b ∈ s.index.blobs.rows) :
    b.body_sha256 ∉ (gc env opts s).1.index.blobs.rows.map BlobRow.body_sha256 ↔
      max opts.batch_size 1 < 2 ^ 63 ∧ BlobDue s.index (forgottenDays env opts verified s) b := by
  rw [(gc_deletes h).2, ← not_iff_not, not_not, not_and]
  constructor
  · intro hin
    obtain ⟨b', hb', hsha⟩ := List.mem_map.1 hin
    obtain ⟨hmem, hkept⟩ := (mem_forgetDays_blobs (by omega)).1 hb'
    rwa [KeyedLog.eq_of_mem hmem hb hsha] at hkept
  · exact fun hkept => List.mem_map_of_mem ((mem_forgetDays_blobs (by omega)).2 ⟨hb, hkept⟩)

/-- A pass that deletes forgets only what is backed up, exactly when the rows of its days are
accounted for. -/
theorem forgetsOnlyBackedUp_of_deletes (h : Deletes env opts s verified) :
    ForgetsOnlyBackedUp env opts s ↔ DaysAccounted env opts s verified := by
  obtain ⟨g, hreceipts⟩ := h.2.2.2
  constructor
  · rintro ⟨hevents, hblobs⟩ d hd
    refine ⟨fun e he hdue => ?_, fun hbatch b hb hday hdue => ?_⟩
    · rw [accounted_iff_backedUp hreceipts hd]
      exact (hevents e he ((event_deleted_iff h he).2 ⟨d, hd, hdue⟩)).2
    · rw [accounted_iff_backedUp hreceipts hd]
      exact (hblobs b hb ((blob_deleted_iff h hb).2 ⟨hbatch, hdue⟩)).2
  · intro hacc
    refine ⟨fun e he hgone => ?_, fun b hb hgone => ?_⟩
    · obtain ⟨d, hd, hdue⟩ := (event_deleted_iff h he).1 hgone
      obtain ⟨hfloor, hlt⟩ := forgottenDays_lt hd
      have hday : dayFloorMs e.observed_at_unix_ms = d := by
        simp only [dueOn, decide_eq_true_eq] at hdue
        exact (dayFloorMs_eq_iff hfloor).2 ⟨hdue.1, hdue.2.1⟩
      rw [hday]
      exact ⟨hlt, (accounted_iff_backedUp hreceipts hd).1 ((hacc d hd).1 e he hdue)⟩
    · obtain ⟨hbatch, hdue⟩ := (blob_deleted_iff h hb).1 hgone
      have hd := hdue.2.1
      exact ⟨(forgottenDays_lt hd).2,
        (accounted_iff_backedUp hreceipts hd).1 ((hacc _ hd).2 hbatch b hb rfl hdue)⟩

end Forgets

/-- **What the body-index pass forgets.**  It forgets only backed-up evidence exactly when, on
every day it forgets, each event outside the spool and each body that no other event holds lies in
a segment that the index has a checksum for, and that reaches into the day or is verified. -/
theorem gc_forgetsOnlyBackedUp_iff (env : Env) (opts : GcOptions) (s : Store) :
    ForgetsOnlyBackedUp env opts s ↔
      ∀ verified, Deletes env opts s verified → DaysAccounted env opts s verified := by
  by_cases hdel : ∃ verified, Deletes env opts s verified
  · obtain ⟨verified, h⟩ := hdel
    rw [forgetsOnlyBackedUp_of_deletes h]
    constructor
    · intro hacc verified' h'
      obtain ⟨g, hg⟩ := h.2.2.2
      obtain ⟨g', hg'⟩ := h'.2.2.2
      rw [hg] at hg'
      cases hg'
      exact hacc
    · exact fun hall => hall verified h
  · push Not at hdel
    have hsame := gc_keeps hdel
    refine iff_of_true ⟨fun e he hgone => ?_, fun b hb hgone => ?_⟩
      fun verified h => absurd h (hdel verified)
    · rw [hsame.1] at hgone
      exact absurd (List.mem_map_of_mem he) hgone
    · rw [hsame.2] at hgone
      exact absurd (List.mem_map_of_mem hb) hgone

/-- A captured request, for concrete runs. -/
def sampleRecord (event_id : String) (observed_at_unix_ms : ℤ) (body : Bytes) (path : Path) :
    BodyRecord :=
  { event_id := event_id
    request_id := "req-1"
    observed_at_unix_ms := observed_at_unix_ms
    capture_stage := "request"
    protocol := "openai"
    upstream := none
    model := none
    status := none
    content_type := none
    body_sha256 := Codec.plain.sha256Hex body
    body_bytes := body.length
    compressed_bytes := 0
    archive_path := path
    storage := path.segmentStorage
    protect := false
    redaction_state := "raw"
    threshold_shrunk := false
    metadata := "null" }

/-- A logger on the plain codec, ten days after the first sample day. -/
def sampleEnv : Env :=
  { codec := .plain
    owner := "state"
    now := 10 * dayMs
    archive_available := true
    locked := fun _ => false
    uses_current_index := true }

/-- One day with a sealed segment that a receipt names and an open segment beside it, after the
day's partition was pruned from the archive. -/
def mixedDay : Store :=
  let sealedPath := Path.inArchive 0 "capture-1.sbcap"
  let openPath := Path.inArchive 0 "capture-2.sbcap"
  let idx := Index.empty.insertRecordOn (sampleRecord "evt-1" 1000 [1] sealedPath) |>.1
    |>.insertRecordOn (sampleRecord "evt-2" 2000 [2] openPath) |>.1
    |>.upsertSegmentProjectionOn (sampleRecord "evt-2" 2000 [2] openPath)
    |>.upsertSegmentManifestProjectionOn sealedPath .archiveSegment
      { schema_version := segmentSchema
        segment_file := "capture-1.sbcap"
        segment_sha256 := Codec.plain.sha256Hex [1]
        segment_bytes := 1
        record_count := 1
        body_bytes := 1
        first_observed_at_unix_ms := some 1000
        last_observed_at_unix_ms := some 1000
        sealed := true } none
  let receipt : Receipt :=
    { schema := backupReceiptSchema
      generation := 1
      completed_at_unix_ms := 3000
      verified_through_day := some 0
      remote_root := "nas:/backup"
      segments := [⟨Codec.plain.sha256Hex [1], Codec.plain.sha256Hex [2], "segments/1",
        "segments/1.json", true⟩] }
  { Store.empty with
    index := idx
    receipts := OrdMap.empty.insert 1 receipt
    latest := some receipt }

/-- The event of the open segment is deleted: its segment has no checksum yet, so the query of the
day does not see it. -/
theorem gc_forgets_open_segment :
    ¬ ForgetsOnlyBackedUp sampleEnv ⟨1, true, false, 8⟩ mixedDay := by
  intro h
  have hopen : sampleRecord "evt-2" 2000 [2] (.inArchive 0 "capture-2.sbcap") ∈
      mixedDay.index.events.rows := by decide +kernel
  have hdeleted : "evt-2" ∉ (gc sampleEnv ⟨1, true, false, 8⟩ mixedDay).1.index.events.rows.map
      BodyRecord.event_id := by decide +kernel
  have hnull : ∀ row ∈ mixedDay.index.segments.rows,
      row.segment_path = .inArchive 0 "capture-2.sbcap" → row.segment_sha256 = none := by
    decide +kernel
  obtain ⟨-, row, hrow, hpath, sha, hsha, -⟩ := h.1 _ hopen hdeleted
  rw [hnull row hrow hpath] at hsha
  cases hsha

end BodyLog

end Switchback
