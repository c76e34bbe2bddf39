import Switchback.BodyLog.Drain
import Switchback.Lib.Text

/-!
# Backup plans and receipts

A backup agent copies the sealed segments that no accepted receipt names yet, and reports back with
a receipt.  An accepted receipt is a file of its own, named by its generation; the index keeps a
projection of the receipts, from which the next generation is counted.
-/

namespace Switchback

namespace BodyLog

open Lib

/-! ### Receipt files -/

def maxReceiptFutureSkewMs : ℤ := 5 * 60 * 1000

/-- `validate_receipt_completion_time`. -/
def validCompletionTime (now completed : ℤ) : Bool :=
  0 < completed ∧ completed ≤ Word.satAddI64 now maxReceiptFutureSkewMs

def validateStoredReceipt (now : ℤ) (r : Receipt) : Except Error Unit :=
  if r.schema ≠ backupReceiptSchema then .error "unsupported stored backup receipt schema"
  else if !validCompletionTime now r.completed_at_unix_ms then
    .error "stored backup receipt completion time is invalid"
  else if r.segments.any fun item => !item.remote_checksum_verified then
    .error "stored backup receipt lacks remote checksum proof"
  else .ok ()

/-- `verified_receipts`: every receipt file, or the first that is not valid. -/
def verifiedReceipts (now : ℤ) (s : Store) : Except Error (List Receipt) :=
  s.receipts.entries.mapM fun p => (validateStoredReceipt now p.2).map fun _ => p.2

/-- The checksums that receipts name. -/
def receiptHashes (receipts : List Receipt) : List Sha :=
  receipts.flatMap fun r => r.segments.map ReceiptItem.segment_sha256

/-- The newest generation among receipts that name a segment. -/
def receiptGeneration (receipts : List Receipt) : ℕ :=
  (receipts.filter fun r => r.segments ≠ []).foldl (fun g r => max g r.generation) 0

def verifiedReceiptState (now : ℤ) (s : Store) : Except Error (List Sha × ℕ) :=
  (verifiedReceipts now s).map fun receipts => (receiptHashes receipts, receiptGeneration receipts)

def verifiedBackupProjectionState (idx : Index) : List Sha × ℕ :=
  (idx.backups.rows.map BackupRow.segment_sha256,
    idx.backups.rows.foldl (fun g row => max g row.receipt_generation) 0)

/-! ### Plans -/

/-- `CaptureBackupPlanItem`. -/
structure PlanItem where
  segment_file : String
  segment_path : Path
  manifest_path : Path
  segment_sha256 : Sha
  manifest_sha256 : Sha
  segment_bytes : ℕ
  record_count : ℕ
  first_observed_at_unix_ms : ℤ
  last_observed_at_unix_ms : ℤ
  utc_day : ℤ

/-- `CaptureBackupPlan`. -/
structure Plan where
  next_generation : ℕ
  segments : List PlanItem
  total_segment_bytes : ℕ

/-- `segment_projection_rows`, in the order of the query. -/
def segmentProjectionRows (idx : Index) : List SegmentRow :=
  idx.segments.rows.mergeSort fun a b =>
    a.first_observed_at_unix_ms < b.first_observed_at_unix_ms ∨
      (a.first_observed_at_unix_ms = b.first_observed_at_unix_ms ∧
        a.segment_path ≤ b.segment_path)

/-- The `UPDATE` that catches a segment row up with its manifest. -/
def projectManifest (path : Path) (m : SegmentManifest) (idx : Index) : Index :=
  { idx with
    segments := idx.segments.updateWhere (fun row => row.segment_path = path)
      (fun row =>
        { row with
          sealed := true
          segment_sha256 := some m.segment_sha256
          segment_bytes := m.segment_bytes
          record_count := m.record_count
          body_bytes := if m.body_bytes > 0 then m.body_bytes else row.body_bytes })
      (fun _ => rfl) }

/-- One round of `verified_segment_projection`: nothing for a verified segment, else the path with
the sealed manifest it has, and the index caught up with it. -/
def verifySegmentRow (env : Env) (verified : List Sha) (row : SegmentRow) (s : Store) :
    Except Error (Store × Option (Path × Option SegmentManifest)) :=
  if (row.segment_sha256.any fun sha => verified.contains sha) = true then .ok (s, none)
  else
    match readVerifiedSegmentManifest env.codec s row.segment_path with
    | .error e => .error e
    | .ok none =>
      if row.sealed then .error "sealed segment manifest is missing"
      else .ok (s, some (row.segment_path, none))
    | .ok (some m) =>
      if !m.sealed then
        if row.sealed then .error "sealed segment manifest is not marked sealed"
        else .ok (s, some (row.segment_path, none))
      else if env.uses_current_index ∧
          (row.sealed = false ∨ row.segment_sha256 ≠ some m.segment_sha256) then
        .ok ({ s with index := projectManifest row.segment_path m s.index },
          some (row.segment_path, some m))
      else .ok (s, some (row.segment_path, some m))

def verifiedSegmentProjection (env : Env) (verified : List Sha) :
    List SegmentRow → Store → Store × Except Error (List (Path × Option SegmentManifest))
  | [], s => (s, .ok [])
  | row :: rows, s =>
    match verifySegmentRow env verified row s with
    | .error e => (s, .error e)
    | .ok (s', none) => verifiedSegmentProjection env verified rows s'
    | .ok (s', some found) =>
      match verifiedSegmentProjection env verified rows s' with
      | (s'', .error e) => (s'', .error e)
      | (s'', .ok found') => (s'', .ok (found :: found'))

/-- The error of a checksum that two segment rows share. -/
def duplicatedChecksum (sha : Sha) : Error :=
  s!"sealed segment checksum is duplicated in the projection: {sha}"

/-- The item of a sealed segment. -/
def planItem (env : Env) (path : Path) (m : SegmentManifest) : Except Error PlanItem :=
  match m.first_observed_at_unix_ms with
  | none => .error "sealed segment manifest has no first record timestamp"
  | some first =>
    if path.file = "" then .error "sealed segment path has no file name"
    else
      match m.last_observed_at_unix_ms with
      | none => .error "sealed segment manifest has no last record timestamp"
      | some last =>
        .ok
          { segment_file := path.file
            segment_path := path
            manifest_path := path
            segment_sha256 := m.segment_sha256
            manifest_sha256 := manifestSha env.codec m
            segment_bytes := m.segment_bytes
            record_count := m.record_count
            first_observed_at_unix_ms := first
            last_observed_at_unix_ms := last
            utc_day := dayFloorMs first }

/-- The loop of `backup_plan_unlocked` over the projections. -/
def planItems (env : Env) (verified : List Sha) :
    List Sha → List (Path × Option SegmentManifest) → Except Error (List PlanItem)
  | _, [] => .ok []
  | planned, (_, none) :: rest => planItems env verified planned rest
  | planned, (path, some m) :: rest =>
    if verified.contains m.segment_sha256 then planItems env verified planned rest
    else if planned.contains m.segment_sha256 then .error (duplicatedChecksum m.segment_sha256)
    else
      planItem env path m >>= fun item =>
      planItems env verified (m.segment_sha256 :: planned) rest >>= fun items =>
      .ok (item :: items)

/-- What is verified already, and the newest generation: from the projection of the current index,
or from the receipt files. -/
def backupState (env : Env) (s : Store) : Except Error (List Sha × ℕ) :=
  if env.uses_current_index then .ok (verifiedBackupProjectionState s.index)
  else verifiedReceiptState env.now s

/-- The order of a plan: by day, then by path. -/
def sortItems (items : List PlanItem) : List PlanItem :=
  items.mergeSort fun a b =>
    a.utc_day < b.utc_day ∨ (a.utc_day = b.utc_day ∧ a.segment_path ≤ b.segment_path)

/-- `backup_plan_unlocked`: the plan, and the store with the segment rows caught up. -/
def backupPlan (env : Env) (s : Store) : Store × Except Error Plan :=
  match backupState env s with
  | .error e => (s, .error e)
  | .ok (verified, latest_generation) =>
    match verifiedSegmentProjection env verified (segmentProjectionRows s.index) s with
    | (s', .error e) => (s', .error e)
    | (s', .ok projections) =>
      (s', (planItems env verified [] projections).map fun items =>
        { next_generation := Word.satAdd latest_generation 1
          segments := sortItems items
          total_segment_bytes := (items.map PlanItem.segment_bytes).foldl Word.satAdd 0 })

/-! ### Accepting a receipt -/

/-- The checks of `accept_backup_receipt` on the receipt alone. -/
def checkReceipt (now : ℤ) (r : Receipt) : Except Error Unit :=
  if r.schema ≠ backupReceiptSchema then .error s!"unsupported backup receipt schema {r.schema}"
  else if !validCompletionTime now r.completed_at_unix_ms then
    .error "backup receipt completion time is invalid"
  else if Text.trim r.remote_root = "" then .error "backup receipt remote_root is empty"
  else if !validateRemoteRoot r.remote_root then
    .error "backup receipt remote_root is not a normalized POSIX path"
  else if r.segments = [] then
    .error "empty backup receipts cannot advance capture freshness"
  else if r.segments.any fun item => !item.remote_checksum_verified then
    .error "backup receipt contains a segment without remote checksum proof"
  else if r.segments.any fun item =>
      Text.trim item.remote_path = "" || Text.trim item.remote_manifest_path = "" then
    .error "backup receipt contains an empty remote artifact path"
  else if r.segments.any fun item =>
      !validateRemoteRelativePath item.remote_path ||
        !validateRemoteRelativePath item.remote_manifest_path then
    .error "backup receipt remote path is not a normalized POSIX path"
  else if ¬ (r.segments.map ReceiptItem.segment_sha256).Nodup then
    .error "backup receipt contains duplicate segment"
  else .ok ()

/-- The checks of `accept_backup_receipt` against the plan. -/
def checkAgainstPlan (r : Receipt) (plan : Plan) : Except Error Unit :=
  if (r.segments.map ReceiptItem.segment_sha256).toFinset ≠
      (plan.segments.map PlanItem.segment_sha256).toFinset then
    .error "backup receipt must cover the exact pending sealed segment set"
  else if r.verified_through_day ≠ plan.segments.getLast?.map PlanItem.utc_day then
    .error "backup receipt verified_through_day does not match pending segment day"
  else if r.generation ≠ plan.next_generation then
    .error "backup receipt generation does not match planned generation"
  else if r.segments.any fun item =>
      (plan.segments.find? fun planned => planned.segment_sha256 = item.segment_sha256).all
        fun planned => planned.manifest_sha256 ≠ item.manifest_sha256 then
    .error "backup receipt manifest checksum does not match pending segment"
  else .ok ()

/-- The catalog entry of a planned segment under an accepted receipt. -/
def acceptedEntry (r : Receipt) (planned : PlanItem) (remote : ReceiptItem) : RemoteSegmentEntry :=
  { schema := remoteSegmentSchema
    state := .verifiedLocal
    receipt_generation := r.generation
    segment_file := planned.segment_file
    segment_path := planned.segment_path
    manifest_path := planned.manifest_path
    segment_sha256 := planned.segment_sha256
    manifest_sha256 := planned.manifest_sha256
    segment_bytes := planned.segment_bytes
    record_count := planned.record_count
    first_observed_at_unix_ms := planned.first_observed_at_unix_ms
    last_observed_at_unix_ms := planned.last_observed_at_unix_ms
    utc_day := planned.utc_day
    remote_root := r.remote_root
    remote_path := remote.remote_path
    remote_manifest_path := remote.remote_manifest_path
    reclaim_staging_dir := none }

/-- One round of `record_accepted_backup`. -/
def recordAccepted (r : Receipt) (planned : PlanItem) (s : Store) : Except Error Store :=
  match r.segments.find? fun item => item.segment_sha256 = planned.segment_sha256 with
  | none => .error "accepted receipt lacks planned segment"
  | some remote => writeCatalogEntry (acceptedEntry r planned remote) s

/-- The receipt file of a generation; an existing file is replaced. -/
def writeReceipt (r : Receipt) (s : Store) : Except Error Store :=
  .ok { s with receipts := s.receipts.insert r.generation r }

/-- `latest-receipt.json`. -/
def writeLatestReceipt (r : Receipt) (s : Store) : Except Error Store :=
  .ok { s with latest := some r }

/-- The projection row of a segment that a receipt names. -/
def backupRow (r : Receipt) (item : ReceiptItem) : BackupRow :=
  ⟨item.segment_sha256, r.generation, r.completed_at_unix_ms⟩

/-- `record_backup_projection`, one transaction that may fail. -/
def recordBackupProjection (fails : Bool) (r : Receipt) (s : Store) : Except Error Store :=
  if fails then .error "database is locked"
  else
    .ok
      { s with
        index :=
          { s.index with
            backups := r.segments.foldl
              (fun t item => t.upsert (backupRow r item)
                (fun old => { backupRow r item with segment_sha256 := old.segment_sha256 })
                (fun _ => rfl)) s.index.backups } }

/-- The effects of an accepted receipt: catalog entries, the receipt file, the latest receipt, and
the projection of a current index. -/
def acceptEffects (env : Env) (fails : Bool) (r : Receipt) (plan : Plan) :
    List (Store → Except Error Store) :=
  plan.segments.map (recordAccepted r) ++
    [writeReceipt r, writeLatestReceipt r] ++
    (if env.uses_current_index then [recordBackupProjection fails r] else [])

def acceptBackupReceipt (env : Env) (fails : Bool) (r : Receipt) (s : Store) :
    Store × Option Error :=
  match checkReceipt env.now r with
  | .error e => (s, some e)
  | .ok () =>
    match backupPlan env s with
    | (s', .error e) => (s', some e)
    | (s', .ok plan) =>
      match checkAgainstPlan r plan with
      | .error e => (s', some e)
      | .ok () => Effects.perform s' (acceptEffects env fails r plan)

end BodyLog

end Switchback
