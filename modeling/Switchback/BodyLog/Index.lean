import Mathlib.Data.Prod.Lex
import Mathlib.Data.String.Basic
import Mathlib.Order.Lex
import Switchback.Lib.Table

/-!
# The body index

The SQLite index of the body log: one row for each captured event, one for each distinct body, one
for each capture segment and one for each segment that an accepted backup receipt names.

Times are Unix milliseconds.  A day partition `YYYY/MM/DD` is named by the start of its UTC day.
-/

namespace Switchback

namespace BodyLog

open Lib

/-- The bytes of a file or a body. -/
abbrev Bytes := List UInt8

/-- A hexadecimal SHA-256 digest. -/
abbrev Sha := String

/-- A message of `BodyLogError`. -/
abbrev Error := String

/-- The `storage` column. -/
inductive Storage
  | archive
  | spool
  | archiveSegment
  | spoolSegment
  | metadataOnly
  deriving DecidableEq

/-- The directory trees a path can lie in: the segments of an archive day partition, the segments
of the spool, the pre-segment blobs of either, and everything else (the empty path of a capture
gap). -/
inductive Root
  | archive
  | spool
  | archiveBlobs
  | spoolBlobs
  | elsewhere
  deriving DecidableEq

def Root.rank : Root → ℕ
  | .archive => 0
  | .spool => 1
  | .archiveBlobs => 2
  | .spoolBlobs => 3
  | .elsewhere => 4

/-- A path: `archive_root/YYYY/MM/DD/segments/file`, `spool/segments/YYYY/MM/DD/file`, a blob file
`blobs/sha256/…` of an archive day or of the spool, named by its checksum, or the text `file`
anywhere else. -/
structure Path where
  root : Root
  day : ℤ
  file : String
  deriving DecidableEq

/-- The key that paths are sorted by. -/
def Path.key (p : Path) : ℕ ×ₗ ℤ ×ₗ String := toLex (p.root.rank, toLex (p.day, p.file))

theorem Path.key_injective : Function.Injective Path.key := by
  rintro ⟨r, d, f⟩ ⟨r', d', f'⟩ h
  have hkey : (r.rank, toLex (d, f)) = (r'.rank, toLex (d', f')) := toLex.injective h
  obtain ⟨hrank, hrest⟩ := Prod.mk.inj hkey
  obtain ⟨rfl, rfl⟩ := Prod.mk.inj (toLex.injective hrest)
  have hroot : r = r' := by cases r <;> cases r' <;> first | rfl | cases hrank
  rw [hroot]

instance : LinearOrder Path := LinearOrder.lift' Path.key Path.key_injective

/-- The empty `archive_path` of a capture gap. -/
def Path.empty : Path := ⟨.elsewhere, 0, ""⟩

/-- A segment of the archive partition of a day. -/
def Path.inArchive (day : ℤ) (file : String) : Path := ⟨.archive, day, file⟩

/-- The storage of a segment at a path: `spool_segment` below the spool, else `archive_segment`. -/
def Path.segmentStorage (p : Path) : Storage :=
  match p.root with
  | .spool => .spoolSegment
  | _ => .archiveSegment

/-- `BodyRecord`, the row of `body_events`.  The metadata is kept as its JSON text. -/
structure BodyRecord where
  event_id : String
  request_id : String
  observed_at_unix_ms : ℤ
  capture_stage : String
  protocol : String
  upstream : Option String
  model : Option String
  status : Option ℕ
  content_type : Option String
  body_sha256 : Sha
  body_bytes : ℕ
  compressed_bytes : ℕ
  archive_path : Path
  storage : Storage
  protect : Bool
  redaction_state : String
  threshold_shrunk : Bool
  metadata : String
  deriving DecidableEq

/-- The row of `body_blobs`: one location for each distinct body. -/
structure BlobRow where
  body_sha256 : Sha
  body_bytes : ℕ
  compressed_bytes : ℕ
  storage : Storage
  archive_path : Path
  protect : Bool
  created_at_unix_ms : ℤ

/-- The row of `body_segments`.  A segment that was never projected from a manifest has no
checksum. -/
structure SegmentRow where
  segment_path : Path
  storage : Storage
  segment_sha256 : Option Sha
  segment_bytes : ℕ
  record_count : ℕ
  body_bytes : ℕ
  first_observed_at_unix_ms : ℤ
  last_observed_at_unix_ms : ℤ
  sealed : Bool

/-- The row of `body_backup_projection`. -/
structure BackupRow where
  segment_sha256 : Sha
  receipt_generation : ℕ
  accepted_at_unix_ms : ℤ

/-- The index file. -/
structure Index where
  events : KeyedLog BodyRecord.event_id
  blobs : KeyedLog BlobRow.body_sha256
  segments : KeyedLog SegmentRow.segment_path
  backups : KeyedLog BackupRow.segment_sha256

/-- The schema applied to a new file. -/
def Index.empty : Index := ⟨.empty, .empty, .empty, .empty⟩

/-- A sealed segment's manifest. -/
structure SegmentManifest where
  schema_version : String
  segment_file : String
  segment_sha256 : Sha
  segment_bytes : ℕ
  record_count : ℕ
  body_bytes : ℕ
  first_observed_at_unix_ms : Option ℤ
  last_observed_at_unix_ms : Option ℤ
  sealed : Bool

/-! ### Days -/

def dayMs : ℤ := 86400000

/-- `day_floor_ms`: the start of the UTC day. -/
def dayFloorMs (unixMs : ℤ) : ℤ := unixMs / dayMs * dayMs

theorem dayFloorMs_le (t : ℤ) : dayFloorMs t ≤ t := by
  unfold dayFloorMs dayMs
  omega

theorem dayFloorMs_eq_iff {t d : ℤ} (hd : dayFloorMs d = d) :
    dayFloorMs t = d ↔ d ≤ t ∧ t < d + dayMs := by
  unfold dayFloorMs dayMs at *
  omega

@[simp] theorem dayFloorMs_dayFloorMs (t : ℤ) : dayFloorMs (dayFloorMs t) = dayFloorMs t := by
  unfold dayFloorMs dayMs
  omega

/-! ### Statements -/

namespace Index

/-- The `body_blobs` row a record brings. -/
def blobOf (r : BodyRecord) : BlobRow :=
  { body_sha256 := r.body_sha256
    body_bytes := r.body_bytes
    compressed_bytes := r.compressed_bytes
    storage := r.storage
    archive_path := r.archive_path
    protect := r.protect
    created_at_unix_ms := r.observed_at_unix_ms }

/-- The blob half of `insert_record_on`: the first location of a body is kept. -/
def insertBlob (idx : Index) (r : BodyRecord) : Index :=
  { idx with blobs := idx.blobs.insertOrIgnore (blobOf r) }

/-- `insert_record_on`: a blob row unless the body has one, then an event row.  A taken event id
is refused; outside a transaction the blob row stays. -/
def insertRecordOn (idx : Index) (r : BodyRecord) : Index × Option Error :=
  match idx.events.insertNew r with
  | some events => ({ idx.insertBlob r with events := events }, none)
  | none => (idx.insertBlob r, some "UNIQUE constraint failed: body_events.event_id")

/-- Move a record to a location. -/
def relocate (path : Path) (storage : Storage) (r : BodyRecord) : BodyRecord :=
  { r with archive_path := path, storage := storage }

/-- `upsert_segment_projection_on`: what a capture adds to the row of its open segment. -/
def upsertSegmentProjectionOn (idx : Index) (r : BodyRecord) : Index :=
  { idx with
    segments := idx.segments.upsert
      { segment_path := r.archive_path
        storage := r.storage
        segment_sha256 := none
        segment_bytes := r.compressed_bytes
        record_count := 1
        body_bytes := r.body_bytes
        first_observed_at_unix_ms := r.observed_at_unix_ms
        last_observed_at_unix_ms := r.observed_at_unix_ms
        sealed := false }
      (fun row =>
        { row with
          storage := r.storage
          segment_bytes := row.segment_bytes + r.compressed_bytes
          record_count := row.record_count + 1
          body_bytes := row.body_bytes + r.body_bytes
          first_observed_at_unix_ms := min row.first_observed_at_unix_ms r.observed_at_unix_ms
          last_observed_at_unix_ms := max row.last_observed_at_unix_ms r.observed_at_unix_ms })
      (fun _ => rfl) }

/-- The row a manifest projects, with the times its records have. -/
def manifestRow (path : Path) (storage : Storage) (m : SegmentManifest) (body_bytes : ℕ)
    (first last : ℤ) : SegmentRow :=
  { segment_path := path
    storage := storage
    segment_sha256 := some m.segment_sha256
    segment_bytes := m.segment_bytes
    record_count := m.record_count
    body_bytes := body_bytes
    first_observed_at_unix_ms := first
    last_observed_at_unix_ms := last
    sealed := m.sealed }

/-- `upsert_segment_manifest_projection_on`: the row of a segment becomes what its manifest says.
A manifest without records projects nothing, and a known body size is not replaced by zero. -/
def upsertSegmentManifestProjectionOn (idx : Index) (path : Path) (storage : Storage)
    (m : SegmentManifest) (recovered_body_bytes : Option ℕ) : Index :=
  match m.first_observed_at_unix_ms, m.last_observed_at_unix_ms with
  | some first, some last =>
    let row := manifestRow path storage m (recovered_body_bytes.getD m.body_bytes) first last
    { idx with
      segments := idx.segments.upsert row
        (fun old =>
          { row with
            segment_path := old.segment_path
            body_bytes := if row.body_bytes > 0 then row.body_bytes else old.body_bytes })
        (fun _ => rfl) }
  | _, _ => idx

/-- The `UPDATE`s of one drained segment, in one transaction: blobs and events of the spool copy
point at the archive copy, and the segment row moves to the archive path.  The primary key of
`body_segments` is the path, so a row already at the archive path refuses the transaction. -/
def drainSegment (idx : Index) (src dest : Path) (m : SegmentManifest) : Except Error Index :=
  match idx.segments.moveKey src (fun row =>
      { row with
        segment_path := dest
        storage := .archiveSegment
        segment_bytes := m.segment_bytes
        record_count := m.record_count
        sealed := true }) with
  | none => .error "UNIQUE constraint failed: body_segments.segment_path"
  | some segments =>
    .ok
      { idx with
        blobs := idx.blobs.updateWhere
          (fun b => b.storage = .spoolSegment ∧ b.archive_path = src)
          (fun b => { b with storage := .archiveSegment, archive_path := dest }) (fun _ => rfl)
        events := idx.events.updateWhere
          (fun e => e.storage = .spoolSegment ∧ e.archive_path = src)
          (relocate dest .archiveSegment) (fun _ => rfl)
        segments := segments }

end Index

end BodyLog

end Switchback
