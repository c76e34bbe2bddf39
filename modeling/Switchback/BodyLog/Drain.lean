import Switchback.BodyLog.Store
import Switchback.Lib.Fallible

/-!
# Draining the spool

While the archive is away, capture goes to segments in the spool.  A drain moves the sealed ones
into the archive partition of their day: copy the segment and its manifest, point the index at the
copy, move the catalog coordinates, and only then unlink the spool copy.
-/

namespace Switchback

namespace BodyLog

open Lib

/-- `validate_local_catalog_entry`: both files are there, below a capture root, with the checksums
of the catalog. -/
def validateLocalCatalogEntry (c : Codec) (entry : RemoteSegmentEntry) (s : Store) :
    Except Error Unit :=
  match s.segments.get entry.segment_path, s.manifests.get entry.manifest_path with
  | some _, some m =>
    if entry.segment_path.root ≠ .archive ∧ entry.segment_path.root ≠ .spool then
      .error "capture artifact escapes Switchback roots"
    else if entry.manifest_path ≠ entry.segment_path then
      .error "remote catalog manifest path does not match segment"
    else
      match readVerifiedSegmentManifest c s entry.segment_path with
      | .error e => .error e
      | .ok none => .error "verified local segment manifest is missing"
      | .ok (some verified) =>
        if verified.segment_sha256 ≠ entry.segment_sha256 ∨
            manifestSha c m ≠ entry.manifest_sha256 then
          .error "verified local segment differs from the accepted remote catalog"
        else .ok ()
  | _, _ => .error "No such file or directory"

/-- The entry of a segment that has moved. -/
def RemoteSegmentEntry.moveTo (entry : RemoteSegmentEntry) (dest : Path) : RemoteSegmentEntry :=
  { entry with segment_path := dest, manifest_path := dest }

/-- `relocate_backed_spool_segment`: new coordinates for a catalogued segment; hashes and remote
proof stay. -/
def relocateBackedSpoolSegment (c : Codec) (src dest : Path) (sha : Sha) (s : Store) :
    Except Error Store :=
  if !validCatalogKey sha then .error "invalid catalog segment checksum"
  else
    match s.catalog.get sha with
    | none => .ok s
    | some entry =>
      validateCatalogEntry entry >>= fun _ =>
      if entry.state ≠ .verifiedLocal ∨ entry.segment_sha256 ≠ sha ∨
          (entry.segment_path ≠ src ∧ entry.segment_path ≠ dest) then
        .error "spool relocation conflicts with remote custody"
      else
        (if (s.segments.get src).isSome ∧ entry.segment_path = src then
          validateLocalCatalogEntry c entry s else .ok ()) >>= fun _ =>
        validateLocalCatalogEntry c (entry.moveTo dest) s >>= fun _ =>
        writeCatalogEntry (entry.moveTo dest) s

/-- The index transaction of a drained segment. -/
def drainIndex (src dest : Path) (m : SegmentManifest) (s : Store) : Except Error Store :=
  (s.index.drainSegment src dest m).map fun idx => { s with index := idx }

/-- The effects of one drained segment. -/
def drainEffects (env : Env) (src dest : Path) (m : SegmentManifest) :
    List (Store → Except Error Store) :=
  [prepareDrain env src dest,
    copySegment env.codec src dest m.segment_sha256,
    copyManifest env.codec src dest,
    drainIndex src dest m,
    relocateBackedSpoolSegment env.codec src dest m.segment_sha256,
    removeSegment src,
    removeManifest src]

/-- Where a spool segment goes: the archive partition of its first record's day. -/
def drainDest (src : Path) (first_at : ℤ) : Path := .inArchive (dayFloorMs first_at) src.file

/-- One round of the segment loop of `drain_spool`: unsealed, empty and locked segments are
skipped. -/
def drainOne (env : Env) (src : Path) (s : Store) : Store × Option Error :=
  match readVerifiedSegmentManifest env.codec s src with
  | .error e => (s, some e)
  | .ok none => (s, none)
  | .ok (some m) =>
    match m.sealed, m.first_observed_at_unix_ms with
    | true, some first_at =>
      if env.locked src then (s, none)
      else if env.locked (drainDest src first_at) then (s.ensureDay (drainDest src first_at), none)
      else
        Effects.perform (s.ensureDay (drainDest src first_at))
          (drainEffects env src (drainDest src first_at) m)
    | _, _ => (s, none)

/-- The segment files of the spool, in path order. -/
def Store.spoolSegments (s : Store) : List Path := s.segments.keys.filter fun p => p.root = .spool

/-- The segment loop of `drain_spool`. -/
def drainSegments (env : Env) (s : Store) : Store × Option Error :=
  Effects.sweep (drainOne env) s.spoolSegments s

/-- One pre-segment blob: the file moves to today's partition, and every row of the body with
it. -/
def drainBlob (env : Env) (src : Path) (s : Store) : Store × Option Error :=
  let dest : Path := ⟨.archiveBlobs, dayFloorMs env.now, src.file⟩
  match s.blobFiles.get src with
  | none => (s, some "No such file or directory")
  | some bytes =>
    let files := s.blobFiles.erase src
    ({ s.ensureDay dest with
        blobFiles := if (s.blobFiles.get dest).isSome then files else files.insert dest bytes
        index :=
          { s.index with
            blobs := s.index.blobs.updateWhere (fun b => b.body_sha256 = src.file)
              (fun b => { b with storage := .archive, archive_path := dest }) (fun _ => rfl)
            events := s.index.events.updateWhere (fun e => e.body_sha256 = src.file)
              (Index.relocate dest .archive) (fun _ => rfl) } }, none)

/-- The blob loop of `drain_spool`. -/
def drainBlobs (env : Env) (s : Store) : Store × Option Error :=
  Effects.sweep (drainBlob env) (s.blobFiles.keys.filter fun p => p.root = .spoolBlobs) s

/-- `drain_spool`, after the logger has sealed its own spool segment. -/
def drainSpool (env : Env) (s : Store) : Store × Option Error :=
  match drainSegments env s with
  | (s', none) => drainBlobs env s'
  | (s', some e) => (s', some e)

/-! ### A drain keeps the rows -/

/-- The same events and bodies are indexed. -/
def SameRows (s s' : Store) : Prop :=
  s'.index.events.rows.map BodyRecord.event_id = s.index.events.rows.map BodyRecord.event_id ∧
    s'.index.blobs.rows.map BlobRow.body_sha256 = s.index.blobs.rows.map BlobRow.body_sha256

theorem SameRows.refl (s : Store) : SameRows s s := ⟨rfl, rfl⟩

variable {s s' : Store} {dest src : Path} {c : Codec} (env : Env)

theorem SameRows.trans {t u : Store} (h : SameRows s t) (h' : SameRows t u) : SameRows s u :=
  ⟨h'.1.trans h.1, h'.2.trans h.2⟩

theorem SameRows.of_index (h : s'.index = s.index) : SameRows s s' := by
  rw [SameRows, h]
  exact ⟨rfl, rfl⟩

@[simp] theorem ensureDay_index (s : Store) (p : Path) : (s.ensureDay p).index = s.index := by
  unfold Store.ensureDay
  split_ifs <;> rfl

theorem prepareDrain_eq_ok {env : Env}
    (h : prepareDrain env src dest s = .ok s') : ∃ custody, s' = { s with custody := custody } := by
  unfold prepareDrain at h
  cases hsrc : s.custody.get src with
  | none => simp [hsrc] at h
  | some source =>
    simp only [hsrc] at h
    by_cases hbad : source.complete = false ∨ source.owners ≠ [env.owner]
    · simp [hbad] at h
    · rw [if_neg hbad] at h
      cases hdest : s.custody.get dest with
      | none =>
        simp only [hdest] at h
        split_ifs at h
        cases h
        exact ⟨_, rfl⟩
      | some cu =>
        simp only [hdest] at h
        split_ifs at h
        cases h
        exact ⟨_, rfl⟩

theorem copySegment_index {sha : Sha}
    (h : copySegment c src dest sha s = .ok s') : s'.index = s.index := by
  unfold copySegment at h
  split at h
  · cases h
  · split_ifs at h
    split at h
    · split_ifs at h
      cases h
      rfl
    · cases h
      exact ensureDay_index s dest

theorem copyManifest_index (h : copyManifest c src dest s = .ok s') : s'.index = s.index := by
  unfold copyManifest at h
  split at h
  · cases h
  · split at h
    · split_ifs at h
      cases h
      rfl
    · cases h
      exact ensureDay_index s dest

theorem writeCatalogEntry_eq_ok {entry : RemoteSegmentEntry}
    (h : writeCatalogEntry entry s = .ok s') :
    s' = { s with catalog := s.catalog.insert entry.segment_sha256 entry } := by
  unfold writeCatalogEntry at h
  split at h
  · cases h
  · split_ifs at h
    cases h
    rfl

theorem relocateBackedSpoolSegment_eq_ok {sha : Sha}
    (h : relocateBackedSpoolSegment c src dest sha s = .ok s') :
    ∃ catalog, s' = { s with catalog := catalog } := by
  unfold relocateBackedSpoolSegment at h
  split_ifs at h
  split at h
  · cases h
    exact ⟨_, rfl⟩
  · obtain ⟨-, -, h⟩ := bind_eq_ok_iff.1 h
    split at h
    · cases h
    · obtain ⟨-, -, h⟩ := bind_eq_ok_iff.1 h
      obtain ⟨-, -, h⟩ := bind_eq_ok_iff.1 h
      exact ⟨_, writeCatalogEntry_eq_ok h⟩

theorem removeSegment_eq_ok {p : Path} (h : removeSegment p s = .ok s') :
    s' = { s with segments := s.segments.erase p } := by
  unfold removeSegment at h
  split at h
  · cases h
  · cases h
    rfl

theorem removeManifest_eq_ok {p : Path} (h : removeManifest p s = .ok s') :
    s' = { s with manifests := s.manifests.erase p } := by
  unfold removeManifest at h
  split at h
  · cases h
  · cases h
    rfl

theorem drainIndex_sameRows {m : SegmentManifest}
    (h : drainIndex src dest m s = .ok s') : SameRows s s' := by
  unfold drainIndex Index.drainSegment at h
  split at h
  · cases h
  · cases h
    exact ⟨KeyedLog.map_key_updateWhere _ _ (Index.relocate dest _) fun _ => rfl, by simp⟩

theorem drainEffects_sameRows {env : Env} {m : SegmentManifest}
    {f : Store → Except Error Store} (hf : f ∈ drainEffects env src dest m)
    (h : f s = .ok s') : SameRows s s' := by
  simp only [drainEffects, List.mem_cons, List.not_mem_nil, or_false] at hf
  rcases hf with rfl | rfl | rfl | rfl | rfl | rfl | rfl
  · obtain ⟨custody, rfl⟩ := prepareDrain_eq_ok h
    exact .refl _
  · exact .of_index (copySegment_index h)
  · exact .of_index (copyManifest_index h)
  · exact drainIndex_sameRows h
  · obtain ⟨catalog, rfl⟩ := relocateBackedSpoolSegment_eq_ok h
    exact .refl _
  · rw [removeSegment_eq_ok h]
    exact .refl _
  · rw [removeManifest_eq_ok h]
    exact .refl _

theorem drainOne_sameRows (src : Path) (s : Store) : SameRows s (drainOne env src s).1 := by
  unfold drainOne
  split
  · exact .refl s
  · exact .refl s
  · split
    · split_ifs
      · exact .refl s
      · exact .of_index (ensureDay_index s _)
      · refine Effects.perform_inv (fun f hf t t' ht h => ?_) (.of_index (ensureDay_index s _))
        exact ht.trans (drainEffects_sameRows hf h)
    · exact .refl s

theorem drainBlob_sameRows (src : Path) (s : Store) : SameRows s (drainBlob env src s).1 := by
  unfold drainBlob
  cases s.blobFiles.get src with
  | none => exact .refl s
  | some bytes =>
    exact ⟨KeyedLog.map_key_updateWhere _ _ (Index.relocate _ _) fun _ => rfl, by simp⟩

/-- **A drain adds and removes no row of the index**, however it ends. -/
theorem drainSpool_sameRows (s : Store) : SameRows s (drainSpool env s).1 := by
  have hsegments : SameRows s (drainSegments env s).1 :=
    Effects.sweep_inv (fun p _ t ht => ht.trans (drainOne_sameRows env p t)) (.refl s)
  unfold drainSpool
  rcases hdrain : drainSegments env s with ⟨s', _ | e⟩
  · rw [hdrain] at hsegments
    exact Effects.sweep_inv (fun p _ t ht => ht.trans (drainBlob_sameRows env p t)) hsegments
  · rwa [hdrain] at hsegments

end BodyLog

end Switchback
