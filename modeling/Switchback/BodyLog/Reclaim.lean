import Switchback.BodyLog.Gc

/-!
# Reclaiming backed-up segments

A segment that an accepted receipt names may leave the disk once a fresh proof shows that its
remote copy is whole.  The catalog entry of the segment carries the intent, the pair of files waits
in a staging directory while the index forgets the segment, and only then is it unlinked.
-/

namespace Switchback

namespace BodyLog

open Lib

/-! ### Gates -/

/-- A file name that is one plain component. -/
def plainFileName (name : String) : Bool :=
  name ≠ "" ∧ name ≠ "." ∧ name ≠ ".." ∧ !name.toList.contains '/'

/-- Where this store stages the files of a segment. -/
def stagingDirOf (env : Env) (entry : RemoteSegmentEntry) : StagingDir :=
  ⟨entry.segment_path.root, entry.segment_path.day, entry.segment_sha256, env.owner⟩

def reclaimStagingPaths (env : Env) (entry : RemoteSegmentEntry) : Except Error StagingDir :=
  if (entry.reclaim_staging_dir.any fun stored => stored ≠ stagingDirOf env entry) = true then
    .error "reclaim staging intent lacks exact owner binding"
  else if !plainFileName entry.segment_file then
    .error "remote catalog segment file is not a plain file name"
  else .ok (stagingDirOf env entry)

/-- Files of the archive are there only while it is mounted. -/
def Env.sees (env : Env) (path : Path) : Bool := path.root ≠ .archive ∨ env.archive_available

/-- Two staging directories of one segment, of whatever owner. -/
def StagingDir.shares (a b : StagingDir) : Bool :=
  a.root = b.root ∧ a.day = b.day ∧ a.segment_sha256 = b.segment_sha256

def refuseSharedStaging (env : Env) (entry : RemoteSegmentEntry) (s : Store) : Except Error Unit :=
  reclaimStagingPaths env entry >>= fun dir =>
  if env.sees entry.segment_path ∧ (s.staging.rows.any fun p => p.dir.shares dir) then
    .error "shared capture reclaim staging requires owner recovery"
  else .ok ()

/-- `classify_local_pair`: whether both files are gone.  Absence means something only below an
archive that is mounted and has the day. -/
def classifyLocalPair (env : Env) (restoring : Bool) (entry : RemoteSegmentEntry) (s : Store) :
    Except Error Bool :=
  if entry.manifest_path ≠ entry.segment_path ∨ entry.segment_path.file ≠ entry.segment_file then
    .error "capture pair paths are not normalized and exact"
  else
    refuseSharedStaging env entry s >>= fun _ =>
    match env.sees entry.segment_path && (s.segments.get entry.segment_path).isSome,
      env.sees entry.segment_path && (s.manifests.get entry.manifest_path).isSome with
    | true, true => (validateLocalCatalogEntry env.codec entry s).map fun _ => false
    | false, false =>
      match entry.segment_path.root with
      | .archive =>
        if !env.archive_available then .error "capture root is not an available directory"
        else if entry.segment_path.day ∉ s.dayDirs then .error "No such file or directory"
        else .ok true
      | .spool =>
        if restoring then .ok true
        else .error "missing capture pair is not in the shared archive"
      | _ => .error "missing capture pair is not in the shared archive"
    | _, _ => .error "capture pair is only partially absent"

def localPairAbsent (env : Env) (entry : RemoteSegmentEntry) (s : Store) : Except Error Bool :=
  classifyLocalPair env false entry s

/-- `validate_accepted_catalog_receipt_at`: the receipt file of the entry's generation names the
segment once, with the entry's checksums and remote paths. -/
def validateAcceptedCatalogReceiptAt (receipts : OrdMap ℕ Receipt) (entry : RemoteSegmentEntry) :
    Except Error Unit :=
  match receipts.get entry.receipt_generation with
  | none => .error "No such file or directory"
  | some r =>
    match r.segments.filter fun item => item.segment_sha256 = entry.segment_sha256 with
    | [item] =>
      if r.schema ≠ backupReceiptSchema ∨ r.generation ≠ entry.receipt_generation ∨
          r.remote_root ≠ entry.remote_root ∨ item.remote_checksum_verified = false ∨
          item.manifest_sha256 ≠ entry.manifest_sha256 ∨ item.remote_path ≠ entry.remote_path ∨
          item.remote_manifest_path ≠ entry.remote_manifest_path then
        .error "catalog differs from its exact accepted backup receipt"
      else .ok ()
    | _ => .error "catalog differs from its exact accepted backup receipt"

/-- What a store keeps about its backups, as its peers read it. -/
structure Peer where
  catalog : OrdMap Sha RemoteSegmentEntry
  receipts : OrdMap ℕ Receipt

/-- The stores that other state directories hold. -/
abbrev Peers := Owner → Option Peer

/-- The backups of an owner, this store's own among them. -/
def peerOf (env : Env) (peers : Peers) (s : Store) (o : Owner) : Option Peer :=
  if o = env.owner then some ⟨s.catalog, s.receipts⟩ else peers o

/-- A peer's entry for the same segment says the same. -/
def RemoteSegmentEntry.agrees (entry peer : RemoteSegmentEntry) : Bool :=
  peer.segment_file = entry.segment_file ∧ peer.segment_sha256 = entry.segment_sha256 ∧
    peer.segment_path = entry.segment_path ∧ peer.manifest_path = entry.manifest_path ∧
    peer.manifest_sha256 = entry.manifest_sha256 ∧ peer.segment_bytes = entry.segment_bytes ∧
    peer.remote_root = entry.remote_root ∧ peer.remote_path = entry.remote_path ∧
    peer.remote_manifest_path = entry.remote_manifest_path ∧ peer.state ≠ .reclaiming ∧
    peer.reclaim_staging_dir = none

/-- One round of `validate_all_projection_custody`. -/
def validatePeer (env : Env) (peers : Peers) (entry : RemoteSegmentEntry) (s : Store) (o : Owner) :
    Except Error Unit :=
  match peerOf env peers s o with
  | none => .error "peer custody identity changed"
  | some p =>
    readCatalogEntry p.catalog entry.segment_sha256 >>= fun peer =>
    validateAcceptedCatalogReceiptAt p.receipts peer >>= fun _ =>
    if !entry.agrees peer then .error "peer custody is not covered by exact remote proof"
    else .ok ()

def validateAllProjectionCustody (env : Env) (peers : Peers) (entry : RemoteSegmentEntry)
    (s : Store) : Except Error Unit :=
  match s.custody.get entry.segment_path with
  | none => .error "physical reclaim lacks segment custody"
  | some cu =>
    if cu.complete = false ∨ env.owner ∉ cu.owners then
      .error "physical reclaim lacks a complete owner set"
    else cu.owners.forM (validatePeer env peers entry s)

/-- `validate_sealed_projection_on`: whether the index has the exact sealed row of the segment. -/
def validateSealedProjectionOn (idx : Index) (entry : RemoteSegmentEntry) (allow_retired : Bool) :
    Except Error Bool :=
  match idx.segments.find entry.segment_path with
  | some row =>
    if row.sealed ∧ row.segment_sha256 = some entry.segment_sha256 ∧
        row.segment_bytes = entry.segment_bytes ∧ row.record_count = entry.record_count then
      .ok true
    else .error "capture segment lacks its exact sealed checksum projection"
  | none =>
    if allow_retired then
      if (idx.events.rows.any fun e => e.archive_path = entry.segment_path) ∨
          (idx.blobs.rows.any fun b => b.archive_path = entry.segment_path) then
        .error "retired segment has orphaned index rows"
      else .ok false
    else .error "capture segment lacks its exact sealed checksum projection"

/-- The newer of two events, by time and then by id. -/
def newerEvent (a b : BodyRecord) : BodyRecord :=
  if a.observed_at_unix_ms < b.observed_at_unix_ms ∨
      (a.observed_at_unix_ms = b.observed_at_unix_ms ∧ a.event_id < b.event_id) then b else a

/-- The event that the blob row of a body is pointed at: the newest one that has the body. -/
def replacementEvent (events : List BodyRecord) (hash : Sha) : Option BodyRecord :=
  match events.filter fun e => e.body_sha256 = hash ∧ e.archive_path ≠ .empty with
  | [] => none
  | e :: es => some (es.foldl newerEvent e)

/-- The blob row of one body after the events of a segment are gone. -/
def retireBlob (events : List BodyRecord) (blobs : KeyedLog BlobRow.body_sha256) (hash : Sha) :
    KeyedLog BlobRow.body_sha256 :=
  match replacementEvent events hash with
  | some e =>
    blobs.updateWhere (fun b => b.body_sha256 = hash)
      (fun b => { b with storage := e.storage, archive_path := e.archive_path }) (fun _ => rfl)
  | none => blobs.deleteWhere fun b => b.body_sha256 = hash

/-- `retire_segment_projection`, one transaction: the events of the segment are deleted, the bodies
they had are pointed at other events, and the sealed row goes. -/
def retireSegmentProjection (entry : RemoteSegmentEntry) (allow_retired : Bool) (s : Store) :
    Except Error Store :=
  validateSealedProjectionOn s.index entry allow_retired >>= fun _ =>
  let hashes := ((s.index.events.rows.filter fun e => e.archive_path = entry.segment_path).map
    BodyRecord.body_sha256).dedup
  let events := s.index.events.deleteWhere fun e => e.archive_path = entry.segment_path
  .ok
    { s with
      index :=
        { s.index with
          events := events
          blobs := hashes.foldl (retireBlob events.rows) s.index.blobs
          segments := s.index.segments.deleteWhere fun row =>
            row.segment_path = entry.segment_path ∧ row.sealed } }

/-! ### The staging directory -/

/-- Create the staging directory. -/
def ensureStaging (dir : StagingDir) (s : Store) : Except Error Store :=
  .ok { s with staging := s.staging.insertOrIgnore ⟨dir, none, none⟩ }

/-- Change what is staged. -/
def Store.stage (s : Store) (dir : StagingDir) (segment : Option Bytes)
    (manifest : Option SegmentManifest) : Store :=
  { s with
    staging := s.staging.updateWhere (fun p => p.dir = dir)
      (fun p => { p with segment := segment, manifest := manifest }) (fun _ => rfl) }

/-- What is staged of the segment. -/
def Store.stagedSegment (s : Store) (dir : StagingDir) : Option Bytes :=
  (s.staging.find dir).bind StagedPair.segment

/-- What is staged of the manifest. -/
def Store.stagedManifest (s : Store) (dir : StagingDir) : Option SegmentManifest :=
  (s.staging.find dir).bind StagedPair.manifest

/-- The staging directory must not hold anything yet. -/
def refuseStaged (dir : StagingDir) (s : Store) : Except Error Store :=
  if (s.stagedSegment dir).isSome ∨ (s.stagedManifest dir).isSome then
    .error "reclaim staging path is not empty; recovery is required"
  else .ok s

/-- `fs::rename` of the segment into the staging directory. -/
def stageSegment (path : Path) (dir : StagingDir) (s : Store) : Except Error Store :=
  match s.segments.get path with
  | none => .error "No such file or directory"
  | some bytes =>
    .ok { s.stage dir (some bytes) (s.stagedManifest dir) with segments := s.segments.erase path }

/-- `fs::rename` of the manifest into the staging directory. -/
def stageManifest (path : Path) (dir : StagingDir) (s : Store) : Except Error Store :=
  match s.manifests.get path with
  | none => .error "No such file or directory"
  | some m =>
    .ok { s.stage dir (s.stagedSegment dir) (some m) with manifests := s.manifests.erase path }

/-- `remove_verified_artifact` of the staged segment. -/
def removeStagedSegment (c : Codec) (dir : StagingDir) (sha : Sha) (s : Store) :
    Except Error Store :=
  match s.stagedSegment dir with
  | none => .ok s
  | some bytes =>
    if c.sha256Hex bytes ≠ sha then
      .error "refusing to remove capture artifact with an unexpected checksum"
    else .ok (s.stage dir none (s.stagedManifest dir))

/-- `remove_verified_artifact` of the staged manifest. -/
def removeStagedManifest (c : Codec) (dir : StagingDir) (sha : Sha) (s : Store) :
    Except Error Store :=
  match s.stagedManifest dir with
  | none => .ok s
  | some m =>
    if manifestSha c m ≠ sha then
      .error "refusing to remove capture artifact with an unexpected checksum"
    else .ok (s.stage dir (s.stagedSegment dir) none)

/-- `restore_staged_artifact` of the segment. -/
def restoreStagedSegment (c : Codec) (path : Path) (dir : StagingDir) (sha : Sha) (s : Store) :
    Except Error Store :=
  match s.segments.get path with
  | some bytes =>
    if c.sha256Hex bytes ≠ sha then .error "reclaim recovery target differs from catalog proof"
    else removeStagedSegment c dir sha s
  | none =>
    match s.stagedSegment dir with
    | none => .error "cannot recover staged capture artifact"
    | some bytes =>
      if c.sha256Hex bytes ≠ sha then .error "staged capture artifact differs from catalog proof"
      else .ok ((s.stage dir none (s.stagedManifest dir)).putSegment path bytes)

/-- `restore_staged_artifact` of the manifest. -/
def restoreStagedManifest (c : Codec) (path : Path) (dir : StagingDir) (sha : Sha) (s : Store) :
    Except Error Store :=
  match s.manifests.get path with
  | some m =>
    if manifestSha c m ≠ sha then .error "reclaim recovery target differs from catalog proof"
    else removeStagedManifest c dir sha s
  | none =>
    match s.stagedManifest dir with
    | none => .error "cannot recover staged capture artifact"
    | some m =>
      if manifestSha c m ≠ sha then .error "staged capture artifact differs from catalog proof"
      else .ok ((s.stage dir (s.stagedSegment dir) none).putManifest path m)

def removeEmptyReclaimDirs (dir : StagingDir) (s : Store) : Except Error Store :=
  .ok
    { s with
      staging := s.staging.deleteWhere fun p => p.dir = dir ∧ p.segment = none ∧ p.manifest = none }

/-- `validate_restore_target`, which creates the directory. -/
def validateRestoreTarget (env : Env) (path : Path) (s : Store) : Except Error Store :=
  match path.root with
  | .archive =>
    if env.archive_available then .ok (s.ensureDay path)
    else .error "capture root is not an available directory"
  | .spool => .ok s
  | _ => .error "restore target is outside Switchback capture roots"

/-! ### Recovering an intent -/

/-- An entry in another state. -/
def RemoteSegmentEntry.become (entry : RemoteSegmentEntry) (state : RemoteSegmentState)
    (dir : Option StagingDir) : RemoteSegmentEntry :=
  { entry with state := state, reclaim_staging_dir := dir }

/-- The effects of `finish_remote_only_cleanup`. -/
def cleanupEffects (env : Env) (entry : RemoteSegmentEntry) (dir : StagingDir) :
    List (Store → Except Error Store) :=
  [validateRestoreTarget env entry.segment_path,
    removeStagedSegment env.codec dir entry.segment_sha256,
    removeStagedManifest env.codec dir entry.manifest_sha256,
    removeEmptyReclaimDirs dir,
    writeCatalogEntry (entry.become .remoteOnly none)]

/-- The effects of putting staged files back. -/
def restoreEffects (env : Env) (entry : RemoteSegmentEntry) (dir : StagingDir) :
    List (Store → Except Error Store) :=
  [restoreStagedSegment env.codec entry.segment_path dir entry.segment_sha256,
    restoreStagedManifest env.codec entry.manifest_path dir entry.manifest_sha256,
    fun s => (validateLocalCatalogEntry env.codec entry s).map fun _ => s,
    removeEmptyReclaimDirs dir,
    writeCatalogEntry (entry.become .verifiedLocal none)]

/-- Where a spool entry goes that names its file. -/
def recoveredDest (entry : RemoteSegmentEntry) : Path :=
  .inArchive (dayFloorMs entry.first_observed_at_unix_ms) entry.segment_file

/-- One round of `recover_reclaim_intents`. -/
def recoverIntent (env : Env) (entry : RemoteSegmentEntry) (s : Store) : Store × Option Error :=
  match entry.state, entry.reclaim_staging_dir with
  | .verifiedLocal, _ =>
    if entry.segment_path.root = .spool ∧
        ((s.index.segments.find (recoveredDest entry)).any fun row =>
          row.segment_sha256 = some entry.segment_sha256 ∧ row.sealed) then
      if !env.archive_available then (s, some "No such file or directory")
      else
        Effects.perform s
          [relocateBackedSpoolSegment env.codec entry.segment_path (recoveredDest entry)
            entry.segment_sha256]
    else (s, none)
  | .remoteOnly, none => (s, none)
  | .reclaiming, none => (s, some "reclaiming catalog entry lacks staging path")
  | _, some _ =>
    match reclaimStagingPaths env entry with
    | .error e => (s, some e)
    | .ok dir =>
      match validateRestoreTarget env entry.segment_path s with
      | .error e => (s, some e)
      | .ok s' =>
        if env.locked entry.segment_path then (s', some "refusing recovery of locked capture segment")
        else if (s'.index.segments.find entry.segment_path).isSome then
          Effects.perform s' (restoreEffects env entry dir)
        else
          Effects.perform s'
            (writeCatalogEntry (entry.become .remoteOnly (some dir)) :: cleanupEffects env entry dir)

def recoverReclaimIntents (env : Env) (s : Store) : Store × Option Error :=
  match readCatalogEntries s.catalog with
  | .error e => (s, some e)
  | .ok entries => Effects.sweep (recoverIntent env) entries s

/-! ### Plans and proofs -/

def reclaimProofSchema : String := "switchback/capture-reclaim-proof@1"

def reclaimProofMaxAgeMs : ℤ := 15 * 60 * 1000

/-- `CaptureReclaimPlanItem`. -/
structure ReclaimItem where
  segment_file : String
  segment_path : Path
  manifest_path : Path
  segment_sha256 : Sha
  manifest_sha256 : Sha
  segment_bytes : ℕ
  utc_day : ℤ
  remote_root : String
  remote_path : String
  remote_manifest_path : String
  local_pair_absent : Bool
  deriving DecidableEq

/-- `CaptureReclaimProofItem`. -/
structure ReclaimProofItem where
  segment_sha256 : Sha
  manifest_sha256 : Sha
  remote_path : String
  remote_manifest_path : String
  remote_checksums_verified : Bool

/-- `CaptureReclaimProof`. -/
structure ReclaimProof where
  schema : String
  verified_at_unix_ms : ℤ
  segments : List ReclaimProofItem

/-- `CaptureReclaimOptions`. -/
structure ReclaimOptions where
  keep_days : ℕ
  confirm : Bool

/-- The proof of a segment says what the plan says. -/
def ReclaimItem.provenBy (item : ReclaimItem) (proven : ReclaimProofItem) : Bool :=
  proven.manifest_sha256 = item.manifest_sha256 ∧ proven.remote_path = item.remote_path ∧
    proven.remote_manifest_path = item.remote_manifest_path

/-- `validate_reclaim_proof`: a fresh proof of exactly the candidates. -/
def validateReclaimProof (now : ℤ) (plan : List ReclaimItem) (proof : ReclaimProof) :
    Except Error Unit :=
  if proof.schema ≠ reclaimProofSchema then .error s!"unsupported reclaim proof schema {proof.schema}"
  else if proof.verified_at_unix_ms > Word.satAddI64 now 60000 ∨
      Word.satSubI64 now proof.verified_at_unix_ms > reclaimProofMaxAgeMs then
    .error "reclaim proof is stale or has a future timestamp"
  else if proof.segments.any fun item => !item.remote_checksums_verified then
    .error "reclaim proof contains an unverified remote artifact"
  else if ¬ (proof.segments.map ReclaimProofItem.segment_sha256).Nodup then
    .error "reclaim proof duplicates segment"
  else if (proof.segments.map ReclaimProofItem.segment_sha256).toFinset ≠
      (plan.map ReclaimItem.segment_sha256).toFinset then
    .error "reclaim proof must cover the exact retention candidate set"
  else if plan.any fun item =>
      (proof.segments.find? fun proven => proven.segment_sha256 = item.segment_sha256).all
        fun proven => !item.provenBy proven then
    .error "reclaim proof does not match remote catalog"
  else .ok ()

/-- The candidate of an entry. -/
def reclaimItem (entry : RemoteSegmentEntry) (absent : Bool) : ReclaimItem :=
  { segment_file := entry.segment_file
    segment_path := entry.segment_path
    manifest_path := entry.manifest_path
    segment_sha256 := entry.segment_sha256
    manifest_sha256 := entry.manifest_sha256
    segment_bytes := entry.segment_bytes
    utc_day := entry.utc_day
    remote_root := entry.remote_root
    remote_path := entry.remote_path
    remote_manifest_path := entry.remote_manifest_path
    local_pair_absent := absent }

/-- The loop of `reclaim_plan_unlocked` over the catalog. -/
def reclaimItems (env : Env) (cutoff : ℤ) (verified : List Sha) (s : Store) :
    List RemoteSegmentEntry → Except Error (List ReclaimItem)
  | [] => .ok []
  | entry :: entries =>
    if entry.state ≠ .verifiedLocal ∨ entry.last_observed_at_unix_ms ≥ cutoff ∨
        !verified.contains entry.segment_sha256 then
      reclaimItems env cutoff verified s entries
    else
      localPairAbsent env entry s >>= fun absent =>
      (if absent then validateAcceptedCatalogReceiptAt s.receipts entry else .ok ()) >>= fun _ =>
      reclaimItems env cutoff verified s entries >>= fun items =>
      .ok (reclaimItem entry absent :: items)

/-- The order of a plan: by day, then by path. -/
def sortReclaim (items : List ReclaimItem) : List ReclaimItem :=
  items.mergeSort fun a b =>
    a.utc_day < b.utc_day ∨ (a.utc_day = b.utc_day ∧ a.segment_path ≤ b.segment_path)

/-- `reclaim_plan_unlocked`. -/
def reclaimPlan (env : Env) (keep_days : ℕ) (s : Store) : Store × Except Error (List ReclaimItem) :=
  match recoverReclaimIntents env s with
  | (s', some e) => (s', .error e)
  | (s', none) =>
    (s', verifiedReceiptState env.now s' >>= fun state =>
      readCatalogEntries s'.catalog >>= fun entries =>
      reclaimItems env (retentionCutoffMs env.now keep_days) state.1 s' entries >>= fun items =>
      .ok (sortReclaim items))

/-! ### Reclaiming one segment -/

/-- The entry is still what was planned. -/
def RemoteSegmentEntry.isPlanned (entry : RemoteSegmentEntry) (item : ReclaimItem) : Bool :=
  entry.state = .verifiedLocal ∧ reclaimItem entry item.local_pair_absent = item

/-- The part of a proof that is about one candidate. -/
def ReclaimProof.only (proof : ReclaimProof) (sha : Sha) : ReclaimProof :=
  { proof with segments := proof.segments.filter fun item => item.segment_sha256 = sha }

/-- The checks of `reclaim_one` before it changes anything: the entry to work on, and whether its
files are gone already. -/
def reclaimCheck (env : Env) (peers : Peers) (item : ReclaimItem) (proof : ReclaimProof)
    (s : Store) : Except Error (RemoteSegmentEntry × Bool) :=
  if env.locked item.segment_path then .error "refusing to reclaim locked capture segment"
  else
    readCatalogEntry s.catalog item.segment_sha256 >>= fun entry =>
    if !entry.isPlanned item then
      .error "catalog changed after planning; refresh exact remote proof"
    else
      validateAcceptedCatalogReceiptAt s.receipts entry >>= fun _ =>
      localPairAbsent env entry s >>= fun absent =>
      if absent ≠ item.local_pair_absent then
        .error "capture pair changed after planning; refresh proof"
      else
        validateReclaimProof env.now [item] (proof.only item.segment_sha256) >>= fun _ =>
        (if absent then .ok () else validateAllProjectionCustody env peers entry s) >>= fun _ =>
        (if absent then .ok (stagingDirOf env entry) else reclaimStagingPaths env entry) >>= fun _ =>
        .ok (entry, absent)

/-- The effects of forgetting a segment whose files are gone. -/
def forgetEffects (entry : RemoteSegmentEntry) : List (Store → Except Error Store) :=
  [retireSegmentProjection entry true, writeCatalogEntry (entry.become .remoteOnly none)]

/-- The effects of `reclaim_one` up to the intent. -/
def intentEffects (entry : RemoteSegmentEntry) (dir : StagingDir) :
    List (Store → Except Error Store) :=
  [ensureStaging dir,
    refuseStaged dir,
    fun s => (validateSealedProjectionOn s.index entry false).map fun _ => s,
    writeCatalogEntry (entry.become .reclaiming (some dir))]

/-- The effects of `reclaim_one` up to the commit of the index. -/
def commitEffects (entry : RemoteSegmentEntry) (dir : StagingDir) :
    List (Store → Except Error Store) :=
  [stageSegment entry.segment_path dir,
    stageManifest entry.manifest_path dir,
    retireSegmentProjection entry false]

/-- The effects of `reclaim_one` behind the commit. -/
def settleEffects (env : Env) (entry : RemoteSegmentEntry) (dir : StagingDir) :
    List (Store → Except Error Store) :=
  writeCatalogEntry (entry.become .remoteOnly (some dir)) :: cleanupEffects env entry dir

/-- `reclaim_one`: an error on the way to the commit is recovered from at once. -/
def reclaimOne (env : Env) (peers : Peers) (proof : ReclaimProof) (item : ReclaimItem) (s : Store) :
    Store × Option Error :=
  match reclaimCheck env peers item proof s with
  | .error e => (s, some e)
  | .ok (entry, true) => Effects.perform s (forgetEffects entry)
  | .ok (entry, false) =>
    match Effects.perform s (intentEffects entry (stagingDirOf env entry)) with
    | (s₁, some e) => (s₁, some e)
    | (s₁, none) =>
      match Effects.perform s₁ (commitEffects entry (stagingDirOf env entry)) with
      | (s₂, none) => Effects.perform s₂ (settleEffects env entry (stagingDirOf env entry))
      | (s₂, some e) =>
        match recoverReclaimIntents env s₂ with
        | (s₃, none) => (s₃, some e)
        | (s₃, some again) => (s₃, some s!"{e}; reclaim recovery also failed: {again}")

def reclaimVerifiedSegments (env : Env) (peers : Peers) (options : ReclaimOptions)
    (proof : ReclaimProof) (s : Store) : Store × Option Error :=
  match reclaimPlan env options.keep_days s with
  | (s', .error e) => (s', some e)
  | (s', .ok plan) =>
    match validateReclaimProof env.now plan proof with
    | .error e => (s', some e)
    | .ok () =>
      if options.confirm then Effects.sweep (reclaimOne env peers proof) plan s' else (s', none)

/-! ### Restoring a segment -/

/-- `copy_file_verified` of a segment from outside. -/
def importSegment (c : Codec) (bytes : Bytes) (dest : Path) (expected : Sha) (s : Store) :
    Except Error Store :=
  if c.sha256Hex bytes ≠ expected then .error "source checksum proof failed before copy"
  else
    match s.segments.get dest with
    | some existing =>
      if c.sha256Hex existing ≠ c.sha256Hex bytes then
        .error "refusing to replace mismatched capture artifact"
      else .ok s
    | none => .ok (s.putSegment dest bytes)

/-- `copy_file_verified` of a manifest from outside. -/
def importManifest (c : Codec) (m : SegmentManifest) (dest : Path) (expected : Sha) (s : Store) :
    Except Error Store :=
  if manifestSha c m ≠ expected then .error "source checksum proof failed before copy"
  else
    match s.manifests.get dest with
    | some existing =>
      if manifestSha c existing ≠ manifestSha c m then
        .error "refusing to replace mismatched capture artifact"
      else .ok s
    | none => .ok (s.putManifest dest m)

/-- The frames of a restored segment, one after the other in one transaction. -/
def insertFrames (path : Path) : List SegmentFrame → Index → Except Error Index
  | [], idx => .ok idx
  | f :: fs, idx =>
    match idx.insertRecordOn (Index.relocate path path.segmentStorage f.record) with
    | (idx', none) => insertFrames path fs idx'
    | (_, some e) => .error e

/-- The index transaction of a restore. -/
def restoreIndex (c : Codec) (entry : RemoteSegmentEntry) (s : Store) : Except Error Store :=
  match s.segments.get entry.segment_path with
  | none => .error "No such file or directory"
  | some bytes =>
    readVerifiedSegmentManifest c s entry.segment_path >>= fun found =>
    match found with
    | none => .error "restored segment manifest is missing"
    | some m =>
      if m.segment_sha256 ≠ entry.segment_sha256 then
        .error "restored segment manifest does not match remote catalog"
      else
        scanSegment c false bytes >>= fun scanned =>
        validateSealedProjectionOn s.index entry true >>= fun projected =>
        (if projected then .ok s.index
          else insertFrames entry.segment_path scanned.1 s.index) >>= fun idx =>
        .ok
          { s with
            index := idx.upsertSegmentManifestProjectionOn entry.segment_path
              entry.segment_path.segmentStorage m (some (bodyBytesOf scanned.1)) }

/-- The effects of a restore before it looks at what is there. -/
def restoreIntent (env : Env) (entry : RemoteSegmentEntry) : List (Store → Except Error Store) :=
  [validateRestoreTarget env entry.segment_path,
    fun s =>
      if env.locked entry.segment_path then .error "refusing restore of locked capture segment"
      else .ok s,
    registerOwner env entry.segment_path false,
    fun s => (validateAcceptedCatalogReceiptAt s.receipts entry).map fun _ => s,
    fun s => (refuseSharedStaging env entry s).map fun _ => s]

/-- The effects of a restore. -/
def restoreCommit (env : Env) (entry : RemoteSegmentEntry) (segment : Bytes)
    (manifest : SegmentManifest) : List (Store → Except Error Store) :=
  [importSegment env.codec segment entry.segment_path entry.segment_sha256,
    importManifest env.codec manifest entry.manifest_path entry.manifest_sha256,
    restoreIndex env.codec entry,
    writeCatalogEntry (entry.become .verifiedLocal none)]

/-- `restore_remote_segment`, with the pair of files that was fetched. -/
def restoreRemoteSegment (env : Env) (sha : Sha) (segment : Bytes) (manifest : SegmentManifest)
    (s : Store) : Store × Option Error :=
  match recoverReclaimIntents env s with
  | (s', some e) => (s', some e)
  | (s', none) =>
    match readCatalogEntry s'.catalog sha with
    | .error e => (s', some e)
    | .ok entry =>
      if env.codec.sha256Hex segment ≠ entry.segment_sha256 then
        (s', some "restore segment checksum does not match remote catalog")
      else if manifestSha env.codec manifest ≠ entry.manifest_sha256 then
        (s', some "restore manifest checksum does not match remote catalog")
      else if entry.state = .reclaiming then (s', some "segment is not remote-only")
      else
        match Effects.perform s' (restoreIntent env entry) with
        | (s₁, some e) => (s₁, some e)
        | (s₁, none) =>
          match classifyLocalPair env true entry s₁, validateSealedProjectionOn s₁.index entry true with
          | .error e, _ => (s₁, some e)
          | .ok _, .error e => (s₁, some e)
          | .ok absent, .ok projected =>
            if entry.state = .verifiedLocal ∧ absent = false ∧ projected = true then (s₁, none)
            else if entry.manifest_path ≠ entry.segment_path then
              (s₁, some "remote catalog manifest path does not match segment")
            else Effects.perform s₁ (restoreCommit env entry segment manifest)

end BodyLog

end Switchback
