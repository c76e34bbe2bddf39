import Mathlib.Data.List.Sort
import Mathlib.Data.List.SplitOn
import Switchback.BodyLog.Segment
import Switchback.Lib.Effects
import Switchback.Lib.OrdMap

/-!
# The durable state of a body log

Everything a restart finds: the segment files with their manifests and custody records, the files
that a reclaim has staged, the index, the accepted backup receipts and the remote catalog.

A JSON file is its parsed value, and a manifest file is named by the path of its segment.
-/

namespace Switchback

namespace BodyLog

open Lib

/-- A canonical state directory, as custody records name it. -/
abbrev Owner := String

/-- `SegmentCustody`: the stores whose indexes project a segment, and whether that is all of them.
The bounds are what `custody::read` accepts. -/
structure SegmentCustody where
  complete : Bool
  owners : List Owner
  nonempty : owners ≠ []
  bounded : owners.length ≤ 64
  distinct : owners.Nodup

/-- `CaptureBackupReceiptItem`. -/
structure ReceiptItem where
  segment_sha256 : Sha
  manifest_sha256 : Sha
  remote_path : String
  remote_manifest_path : String
  remote_checksum_verified : Bool
  deriving DecidableEq

/-- `CaptureBackupReceipt`.  A UTC day is named by its start. -/
structure Receipt where
  schema : String
  generation : ℕ
  completed_at_unix_ms : ℤ
  verified_through_day : Option ℤ
  remote_root : String
  segments : List ReceiptItem
  deriving DecidableEq

inductive RemoteSegmentState
  | verifiedLocal
  | reclaiming
  | remoteOnly
  deriving DecidableEq

/-- The directory `segments/.switchback-reclaim/<sha>/<owner>` beside a segment. -/
structure StagingDir where
  root : Root
  day : ℤ
  segment_sha256 : Sha
  owner : Owner
  deriving DecidableEq

/-- `RemoteSegmentEntry`, a file of the remote catalog. -/
structure RemoteSegmentEntry where
  schema : String
  state : RemoteSegmentState
  receipt_generation : ℕ
  segment_file : String
  segment_path : Path
  manifest_path : Path
  segment_sha256 : Sha
  manifest_sha256 : Sha
  segment_bytes : ℕ
  record_count : ℕ
  first_observed_at_unix_ms : ℤ
  last_observed_at_unix_ms : ℤ
  utc_day : ℤ
  remote_root : String
  remote_path : String
  remote_manifest_path : String
  reclaim_staging_dir : Option StagingDir

/-- What a reclaim has moved into its staging directory. -/
structure StagedPair where
  dir : StagingDir
  segment : Option Bytes
  manifest : Option SegmentManifest

/-- The durable state.  `temps` are the temporary manifests that a crash left behind, by segment
and number, `blobFiles` the pre-segment blobs, and `dayDirs` the day partitions that exist in the
archive. -/
structure Store where
  segments : OrdMap Path Bytes
  manifests : OrdMap Path SegmentManifest
  temps : List (Path × ℕ)
  custody : OrdMap Path SegmentCustody
  blobFiles : OrdMap Path Bytes
  dayDirs : List ℤ
  staging : KeyedLog StagedPair.dir
  index : Index
  receipts : OrdMap ℕ Receipt
  latest : Option Receipt
  catalog : OrdMap Sha RemoteSegmentEntry

/-- A state directory before its first capture. -/
def Store.empty : Store :=
  { segments := .empty
    manifests := .empty
    temps := []
    custody := .empty
    blobFiles := .empty
    dayDirs := []
    staging := .empty
    index := .empty
    receipts := .empty
    latest := none
    catalog := .empty }

/-- What an operation finds around the store: the clock, whether the archive root is mounted, the
segments that another live writer has locked, and whether the logger works on the current index or
on one from before segments. -/
structure Env where
  codec : Codec
  owner : Owner
  now : ℤ
  archive_available : Bool
  locked : Path → Bool
  uses_current_index : Bool

/-! ### Custody -/

theorem Owner.perm_orderedInsert (o : Owner) (owners : List Owner) :
    (owners.orderedInsert (· ≤ ·) o).Perm (o :: owners) :=
  List.perm_orderedInsert _ o owners

/-- A custody record with one more owner. -/
def SegmentCustody.add (cu : SegmentCustody) (o : Owner) (hnew : o ∉ cu.owners)
    (hroom : cu.owners.length < 64) : SegmentCustody where
  complete := cu.complete
  owners := cu.owners.orderedInsert (· ≤ ·) o
  nonempty := fun h => by
    have := (Owner.perm_orderedInsert o cu.owners).length_eq
    rw [h] at this
    simp at this
  bounded := by
    rw [(Owner.perm_orderedInsert o cu.owners).length_eq, List.length_cons]
    omega
  distinct := (Owner.perm_orderedInsert o cu.owners).nodup_iff.2 (List.nodup_cons.2 ⟨hnew, cu.distinct⟩)

/-- The custody record of one owner. -/
def SegmentCustody.single (complete : Bool) (o : Owner) : SegmentCustody :=
  ⟨complete, [o], by simp, by simp, by simp⟩

/-- `custody::register_owner`: only the writer of a new segment attests that the owners are
complete. -/
def registerOwner (env : Env) (path : Path) (created : Bool) (s : Store) : Except Error Store :=
  match s.custody.get path with
  | some cu =>
    if created then .error "new segment already has a custody record"
    else if h : env.owner ∈ cu.owners then .ok s
    else if hroom : cu.owners.length < 64 then
      .ok { s with custody := s.custody.insert path (cu.add env.owner h hroom) }
    else .error "segment custody owner limit reached"
  | none =>
    .ok { s with custody := s.custody.insert path (.single created env.owner) }

/-- `custody::prepare_drain`: the source is this store's alone, and the destination is new or
already prepared. -/
def prepareDrain (env : Env) (src dest : Path) (s : Store) : Except Error Store :=
  match s.custody.get src with
  | none => .error "spool drain lacks complete segment custody"
  | some source =>
    if source.complete = false ∨ source.owners ≠ [env.owner] then
      .error "spool drain requires complete exclusive custody"
    else
      match s.custody.get dest with
      | some cu =>
        if cu.complete ∧ env.owner ∈ cu.owners then .ok s
        else .error "drain destination has ambiguous custody"
      | none =>
        if (s.segments.get dest).isSome then .error "existing drain destination lacks custody"
        else .ok { s with custody := s.custody.insert dest source }

/-! ### Files -/

/-- The checksum of a manifest file. -/
def manifestSha (c : Codec) (m : SegmentManifest) : Sha := c.sha256Hex (c.manifestToVec m)

def readVerifiedSegmentManifest (c : Codec) (s : Store) (path : Path) :
    Except Error (Option SegmentManifest) :=
  match s.manifests.get path with
  | none => .ok none
  | some m =>
    match s.segments.get path with
    | none => .error "No such file or directory"
    | some bytes => (verifyManifest c path m bytes).map some

/-- The day directory that a write below the archive creates. -/
def Store.ensureDay (s : Store) (path : Path) : Store :=
  if (path.root = .archive ∨ path.root = .archiveBlobs) ∧ path.day ∉ s.dayDirs then
    { s with dayDirs := path.day :: s.dayDirs }
  else s

/-- Publish a segment file under its path. -/
def Store.putSegment (s : Store) (path : Path) (bytes : Bytes) : Store :=
  { s.ensureDay path with segments := s.segments.insert path bytes }

/-- Publish a manifest under its segment's path. -/
def Store.putManifest (s : Store) (path : Path) (m : SegmentManifest) : Store :=
  { s.ensureDay path with manifests := s.manifests.insert path m }

/-- `copy_file_verified` of a segment: an existing destination is accepted only with the same
bytes. -/
def copySegment (c : Codec) (src dest : Path) (expected : Sha) (s : Store) : Except Error Store :=
  match s.segments.get src with
  | none => .error "No such file or directory"
  | some bytes =>
    if c.sha256Hex bytes ≠ expected then .error "source checksum proof failed before copy"
    else
      match s.segments.get dest with
      | some existing =>
        if c.sha256Hex existing ≠ c.sha256Hex bytes then
          .error "refusing to replace mismatched capture artifact"
        else .ok s
      | none => .ok (s.putSegment dest bytes)

/-- `copy_file_verified` of a manifest. -/
def copyManifest (c : Codec) (src dest : Path) (s : Store) : Except Error Store :=
  match s.manifests.get src with
  | none => .error "No such file or directory"
  | some m =>
    match s.manifests.get dest with
    | some existing =>
      if manifestSha c existing ≠ manifestSha c m then
        .error "refusing to replace mismatched capture artifact"
      else .ok s
    | none => .ok (s.putManifest dest m)

/-- `fs::remove_file` of a segment. -/
def removeSegment (path : Path) (s : Store) : Except Error Store :=
  match s.segments.get path with
  | none => .error "No such file or directory"
  | some _ => .ok { s with segments := s.segments.erase path }

/-- `fs::remove_file` of a manifest. -/
def removeManifest (path : Path) (s : Store) : Except Error Store :=
  match s.manifests.get path with
  | none => .error "No such file or directory"
  | some _ => .ok { s with manifests := s.manifests.erase path }

/-! ### The remote catalog -/

def remoteSegmentSchema : String := "switchback/remote-segment@1"

def backupReceiptSchema : String := "switchback/capture-backup@2"

/-- The characters of a path part on the remote side. -/
def isPathChar (ch : Char) : Bool := ch.isAlphanum || "._-@".toList.contains ch

/-- `validate_posix_parts`: a normalised POSIX path. -/
def validatePosixParts (value : List Char) (absolute : Bool) : Bool :=
  let relative := if absolute then value.drop 1 else value
  value ≠ [] ∧ (value.head? = some '/' ↔ absolute = true) ∧ value.getLast? ≠ some '/' ∧
    !value.contains '\\' ∧ relative ≠ [] ∧
    (relative.splitOn '/').all fun part =>
      part ≠ [] ∧ part ≠ ['.'] ∧ part ≠ ['.', '.'] ∧ part.all isPathChar

/-- `validate_remote_root`: `endpoint:/absolute/path`. -/
def validateRemoteRoot (value : String) : Bool :=
  match value.toList.span (· ≠ ':') with
  | (_, []) => false
  | (endpoint, _ :: root) =>
    endpoint ≠ [] ∧ endpoint.all isPathChar ∧ validatePosixParts root true

/-- `validate_remote_relative_path`: a path below the `segments` namespace. -/
def validateRemoteRelativePath (value : String) : Bool :=
  validatePosixParts value.toList false ∧
    (value.toList.splitOn '/').head? = some "segments".toList

def validateCatalogEntry (entry : RemoteSegmentEntry) : Except Error Unit :=
  if entry.schema ≠ remoteSegmentSchema then .error "unsupported remote segment schema"
  else if entry.segment_sha256.length ≠ 64 ∨ entry.manifest_sha256.length ≠ 64 then
    .error "remote segment catalog has an invalid checksum"
  else if !validateRemoteRoot entry.remote_root then
    .error "backup receipt remote_root is not a normalized POSIX path"
  else if !validateRemoteRelativePath entry.remote_path then
    .error "remote segment catalog path is not a normalized POSIX path"
  else if !validateRemoteRelativePath entry.remote_manifest_path then
    .error "remote segment catalog manifest path is not a normalized POSIX path"
  else .ok ()

/-- The check of `catalog_path`: a lower-case hexadecimal SHA-256. -/
def validCatalogKey (sha : Sha) : Bool :=
  sha.length = 64 ∧ sha.toList.all fun ch => ch.isDigit || ('a' ≤ ch ∧ ch ≤ 'f')

def readCatalogEntry (catalog : OrdMap Sha RemoteSegmentEntry) (sha : Sha) :
    Except Error RemoteSegmentEntry :=
  if !validCatalogKey sha then .error "invalid catalog segment checksum"
  else
    match catalog.get sha with
    | none => .error "No such file or directory"
    | some entry => (validateCatalogEntry entry).map fun _ => entry

/-- `read_catalog_entries`: every file of the catalog, or the first that is not valid. -/
def readCatalogEntries (catalog : OrdMap Sha RemoteSegmentEntry) :
    Except Error (List RemoteSegmentEntry) :=
  catalog.entries.mapM fun p => (validateCatalogEntry p.2).map fun _ => p.2

def writeCatalogEntry (entry : RemoteSegmentEntry) (s : Store) : Except Error Store :=
  match validateCatalogEntry entry with
  | .error e => .error e
  | .ok () =>
    if !validCatalogKey entry.segment_sha256 then .error "invalid catalog segment checksum"
    else .ok { s with catalog := s.catalog.insert entry.segment_sha256 entry }

end BodyLog

end Switchback
