import Mathlib.Tactic.IntervalCases
import Switchback.BodyLog.Reclaim
import Switchback.BodyLog.TornTail

/-!
# Restoring again

A restore copies the two files of a segment back, indexes the frames and rewrites the catalog
entry.  A crash can stop it behind any of these, and the restore is called again.
-/

namespace Switchback

namespace BodyLog

open Lib

namespace Restore

/-- The effects of a restore. -/
def effects (env : Env) (entry : RemoteSegmentEntry) (segment : Bytes)
    (manifest : SegmentManifest) : List (Store → Except Error Store) :=
  restoreIntent env entry ++ restoreCommit env entry segment manifest

/-- What a crash behind the first `k` effects leaves. -/
def restoreCrashed (env : Env) (entry : RemoteSegmentEntry) (segment : Bytes)
    (manifest : SegmentManifest) (k : ℕ) (s : Store) : Store :=
  Effects.crashed k (effects env entry segment manifest) s

/-- The effects up to the copy of the segment. -/
def betweenCopies (env : Env) (entry : RemoteSegmentEntry) : ℕ :=
  (restoreIntent env entry).length + 1

/-- The index has the segment where a drain of the spool puts it. -/
def projectedAtDest (entry : RemoteSegmentEntry) (idx : Index) : Bool :=
  (idx.segments.find (recoveredDest entry)).any fun row =>
    row.segment_sha256 = some entry.segment_sha256 ∧ row.sealed

/-- No reclaim and no relocation waits for this entry. -/
def settledEntry (entry : RemoteSegmentEntry) (idx : Index) : Bool :=
  match entry.state, entry.reclaim_staging_dir with
  | .verifiedLocal, _ => !(entry.segment_path.root = .spool ∧ projectedAtDest entry idx)
  | .remoteOnly, none => true
  | _, _ => false

/-- The catalog files are valid, filed under their segments, and settled. -/
def Settled (s : Store) : Prop :=
  ∀ sha entry, s.catalog.get sha = some entry →
    sha = entry.segment_sha256 ∧ validateCatalogEntry entry = .ok () ∧
      settledEntry entry s.index = true

/-- The catalog entry of a sealed manifest. -/
structure Catalogued (entry : RemoteSegmentEntry) (manifest : SegmentManifest) : Prop where
  is_sealed : manifest.sealed = true
  bytes_eq : manifest.segment_bytes = entry.segment_bytes
  count_eq : manifest.record_count = entry.record_count
  first_eq : manifest.first_observed_at_unix_ms = some entry.first_observed_at_unix_ms
  last_eq : manifest.last_observed_at_unix_ms = some entry.last_observed_at_unix_ms

/-- A file at a canonical path that has the checksum of the source is the source. -/
structure SameFiles (env : Env) (entry : RemoteSegmentEntry) (segment : Bytes)
    (manifest : SegmentManifest) (s : Store) : Prop where
  segment_eq : ∀ b, s.segments.get entry.segment_path = some b →
    env.codec.sha256Hex b = env.codec.sha256Hex segment → b = segment
  manifest_eq : ∀ m, s.manifests.get entry.manifest_path = some m →
    manifestSha env.codec m = manifestSha env.codec manifest → m = manifest

/-- Both files are there. -/
def PairPresent (entry : RemoteSegmentEntry) (s : Store) : Prop :=
  (s.segments.get entry.segment_path).isSome ∧ (s.manifests.get entry.manifest_path).isSome

/-- Each frame has one row, which is at the segment. -/
def Indexed (path : Path) (frames : List SegmentFrame) (idx : Index) : Prop :=
  ∀ f ∈ frames,
    (idx.events.rows.filter fun e => e.event_id = f.record.event_id) =
      [Index.relocate path path.segmentStorage f.record]

/-- The segment is back: both files, the frames in the index, the entry in the catalog. -/
structure Restored (env : Env) (entry : RemoteSegmentEntry) (segment : Bytes)
    (manifest : SegmentManifest) (s : Store) : Prop where
  segment_there : s.segments.get entry.segment_path = some segment
  manifest_there : s.manifests.get entry.manifest_path = some manifest
  indexed : ∃ frames kept, scanSegment env.codec false segment = .ok (frames, kept) ∧
    Indexed entry.segment_path frames s.index
  catalogued : s.catalog.get entry.segment_sha256 = some (entry.become .verifiedLocal none)

variable {env : Env} {entry : RemoteSegmentEntry} {segment : Bytes} {manifest : SegmentManifest}
  {s s₁ t : Store}

theorem recoverIntent_settled (h : settledEntry entry s.index = true) :
    recoverIntent env entry s = (s, none) := by
  rw [settledEntry] at h
  rw [recoverIntent]
  cases hstate : entry.state with
  | verifiedLocal =>
    rw [hstate] at h
    dsimp only at h ⊢
    rw [if_neg]
    simpa [imp_iff_not_or, projectedAtDest] using h
  | reclaiming =>
    rw [hstate] at h
    cases hdir : entry.reclaim_staging_dir with
    | none =>
      rw [hdir] at h
      cases h
    | some dir =>
      rw [hdir] at h
      cases h
  | remoteOnly =>
    rw [hstate] at h
    cases hdir : entry.reclaim_staging_dir with
    | none => rfl
    | some dir =>
      rw [hdir] at h
      cases h

theorem recover_settled (h : Settled s) : recoverReclaimIntents env s = (s, none) := by
  have hentry (p : Sha × RemoteSegmentEntry) (hp : p ∈ s.catalog.entries) :=
    h p.1 p.2 (OrdMap.mem_entries_iff.1 hp)
  have hread : readCatalogEntries s.catalog = .ok (s.catalog.entries.map Prod.snd) := by
    rw [readCatalogEntries, mapM_checked_eq_ok_iff]
    exact ⟨fun p hp => (hentry p hp).2.1, rfl⟩
  have hsweep (entries : List RemoteSegmentEntry)
      (hall : ∀ e ∈ entries, settledEntry e s.index = true) :
      Effects.sweep (recoverIntent env) entries s = (s, none) := by
    induction entries with
    | nil => rfl
    | cons e entries ih =>
      rw [List.forall_mem_cons] at hall
      rw [Effects.sweep_cons_none (recoverIntent_settled hall.1)]
      exact ih hall.2
  rw [recoverReclaimIntents, hread]
  refine hsweep _ ?_
  intro e he
  obtain ⟨p, hp, rfl⟩ := List.mem_map.1 he
  exact (hentry p hp).2.2

/-! ### The effects before the copies -/

/-- The segment's directory can be made. -/
def TargetOk (env : Env) (path : Path) : Prop :=
  (path.root = .archive ∧ env.archive_available = true) ∨ path.root = .spool

variable {path : Path} {b : Bytes} {frames : List SegmentFrame} {idx idx' : Index}
variable {e : RemoteSegmentEntry} {s₈ : Store}

theorem validateRestoreTarget_eq_ok {d : Store} :
    validateRestoreTarget env path s = .ok d ↔ TargetOk env path ∧ d = s.ensureDay path := by
  rw [validateRestoreTarget, TargetOk]
  cases hroot : path.root with
  | archive =>
    cases hmount : env.archive_available with
    | false => simp
    | true => simp [eq_comm]
  | spool =>
    have hsame : s.ensureDay path = s := by
      rw [Store.ensureDay, if_neg]
      simp [hroot]
    rw [hsame]
    constructor
    · intro h
      cases h
      simp
    · rintro ⟨-, rfl⟩
      rfl
  | archiveBlobs => simp
  | spoolBlobs => simp
  | elsewhere => simp

/-- The directory is there. -/
def DayThere (path : Path) (s : Store) : Prop := path.root = .spool ∨ path.day ∈ s.dayDirs

theorem ensureDay_of_there (h : DayThere path s) : s.ensureDay path = s := by
  rw [Store.ensureDay, if_neg]
  rintro ⟨hroot, hday⟩
  rcases h with hspool | hmem
  · rw [hspool] at hroot
    simp at hroot
  · exact hday hmem

theorem dayThere_ensureDay (h : TargetOk env path) : DayThere path (s.ensureDay path) := by
  rcases h with ⟨hroot, -⟩ | hroot
  · refine Or.inr ?_
    rw [Store.ensureDay]
    split_ifs with hnew
    · exact List.mem_cons_self
    · by_contra hday
      exact hnew ⟨Or.inl hroot, hday⟩
  · exact Or.inl hroot

theorem registerOwner_of_mem {cu : SegmentCustody}
    (hget : s.custody.get path = some cu) (hmem : env.owner ∈ cu.owners) :
    registerOwner env path false s = .ok s := by
  rw [registerOwner, hget]
  dsimp only
  rw [if_neg (by simp), dif_pos hmem]

theorem registerOwner_eq_ok {s' : Store} (h : registerOwner env path false s = .ok s') :
    ∃ custody cu, s' = { s with custody := custody } ∧ custody.get path = some cu ∧
      env.owner ∈ cu.owners := by
  rw [registerOwner] at h
  cases hget : s.custody.get path with
  | none =>
    rw [hget] at h
    cases h
    exact ⟨_, _, rfl, by rw [OrdMap.get_insert, if_pos rfl], by simp [SegmentCustody.single]⟩
  | some cu =>
    rw [hget] at h
    dsimp only at h
    rw [if_neg (by simp)] at h
    split_ifs at h with hmem hroom
    · cases h
      exact ⟨s.custody, cu, rfl, hget, hmem⟩
    · cases h
      refine ⟨_, _, rfl, by rw [OrdMap.get_insert, if_pos rfl], ?_⟩
      exact (Owner.perm_orderedInsert env.owner cu.owners).mem_iff.2 List.mem_cons_self

/-- What the effects before the copies check, and do. -/
structure Prepares (env : Env) (entry : RemoteSegmentEntry) (s s₁ : Store) : Prop where
  target : TargetOk env entry.segment_path
  unlocked : env.locked entry.segment_path = false
  owner : registerOwner env entry.segment_path false (s.ensureDay entry.segment_path) = .ok s₁
  receipt : validateAcceptedCatalogReceiptAt s₁.receipts entry = .ok ()
  staging : refuseSharedStaging env entry s₁ = .ok ()

theorem map_const_eq_ok {α β : Type} {x : Except Error α} {b b' : β} :
    (x.map fun _ => b) = .ok b' ↔ (∃ a, x = .ok a) ∧ b' = b := by
  cases x with
  | error e => simp [Except.map]
  | ok a => simp [Except.map, eq_comm]

theorem prepare_iff :
    Effects.perform s (restoreIntent env entry) = (s₁, none) ↔ Prepares env entry s s₁ := by
  simp only [restoreIntent, Effects.perform_cons_none, Effects.perform_nil, Prod.mk.injEq,
    and_true, map_const_eq_ok, validateRestoreTarget_eq_ok]
  constructor
  · rintro ⟨d, ⟨htarget, rfl⟩, d', hlock, u, howner, u', ⟨⟨⟨⟩, hreceipt⟩, rfl⟩, u'',
      ⟨⟨⟨⟩, hstaging⟩, rfl⟩, rfl⟩
    split_ifs at hlock with hlocked
    cases hlock
    exact ⟨htarget, by simpa using hlocked, howner, hreceipt, hstaging⟩
  · rintro ⟨htarget, hlocked, howner, hreceipt, hstaging⟩
    exact ⟨_, ⟨htarget, rfl⟩, _, by rw [hlocked]; rfl, _, howner, _, ⟨⟨(), hreceipt⟩, rfl⟩, _,
      ⟨⟨(), hstaging⟩, rfl⟩, rfl⟩

/-- What the effects before the copies leave: the directory is there, and the owner is known. -/
structure Prepared (env : Env) (entry : RemoteSegmentEntry) (s₁ : Store) : Prop where
  target : TargetOk env entry.segment_path
  unlocked : env.locked entry.segment_path = false
  day : DayThere entry.segment_path s₁
  owner : ∃ cu, s₁.custody.get entry.segment_path = some cu ∧ env.owner ∈ cu.owners
  receipt : validateAcceptedCatalogReceiptAt s₁.receipts entry = .ok ()
  staging : refuseSharedStaging env entry s₁ = .ok ()

theorem Prepares.prepared (h : Prepares env entry s s₁) : Prepared env entry s₁ := by
  obtain ⟨htarget, hlocked, howner, hreceipt, hstaging⟩ := h
  obtain ⟨custody, cu, rfl, hget, hmem⟩ := registerOwner_eq_ok howner
  exact ⟨htarget, hlocked, dayThere_ensureDay htarget, ⟨cu, hget, hmem⟩, hreceipt, hstaging⟩

/-- They change nothing the second time. -/
theorem Prepared.again (h : Prepared env entry s₁) : Prepares env entry s₁ s₁ := by
  obtain ⟨htarget, hlocked, hday, ⟨cu, hget, hmem⟩, hreceipt, hstaging⟩ := h
  refine ⟨htarget, hlocked, ?_, hreceipt, hstaging⟩
  rw [ensureDay_of_there hday]
  exact registerOwner_of_mem hget hmem

theorem Prepares.of_ensureDay (h : Prepares env entry s s₁) :
    Prepares env entry (s.ensureDay entry.segment_path) s₁ := by
  obtain ⟨htarget, hlocked, howner, hreceipt, hstaging⟩ := h
  refine ⟨htarget, hlocked, ?_, hreceipt, hstaging⟩
  rw [ensureDay_of_there (dayThere_ensureDay htarget)]
  exact howner

theorem Prepared.with_files (h : Prepared env entry s₁) (segments : OrdMap Path Bytes)
    (manifests : OrdMap Path SegmentManifest) (index : Index) :
    Prepared env entry
      { s₁ with segments := segments, manifests := manifests, index := index } :=
  ⟨h.target, h.unlocked, h.day, h.owner, h.receipt, h.staging⟩

/-! ### The copies -/

theorem TargetOk.sees (h : TargetOk env path) : env.sees path = true := by
  rcases h with ⟨-, hmount⟩ | hspool
  · simp [Env.sees, hmount]
  · simp [Env.sees, hspool]

/-- A classification says where the two files belong. -/
theorem classify_paths {absent : Bool} (h : classifyLocalPair env true entry s = .ok absent) :
    entry.manifest_path = entry.segment_path ∧ entry.segment_path.file = entry.segment_file := by
  by_contra hpaths
  rw [classifyLocalPair, if_pos (not_and_or.1 hpaths)] at h
  cases h

theorem classify_unfinished (hpaths : entry.manifest_path = entry.segment_path ∧
      entry.segment_path.file = entry.segment_file) (hprepared : Prepared env entry s)
    (hsegment : s.segments.get entry.segment_path = some b)
    (hmanifest : s.manifests.get entry.manifest_path = none) :
    classifyLocalPair env true entry s = .error "capture pair is only partially absent" := by
  rw [classifyLocalPair, if_neg (by simp [hpaths.1, hpaths.2]), hprepared.staging,
    hprepared.target.sees, hsegment, hmanifest]
  rfl

theorem classify_both (hpaths : entry.manifest_path = entry.segment_path ∧
      entry.segment_path.file = entry.segment_file) (hprepared : Prepared env entry s)
    {m : SegmentManifest} (hsegment : s.segments.get entry.segment_path = some b)
    (hmanifest : s.manifests.get entry.manifest_path = some m) :
    classifyLocalPair env true entry s =
      (validateLocalCatalogEntry env.codec entry s).map fun _ => false := by
  rw [classifyLocalPair, if_neg (by simp [hpaths.1, hpaths.2]), hprepared.staging,
    hprepared.target.sees, hsegment, hmanifest]
  rfl

theorem classify_ok (hprepared : Prepared env entry s) {absent : Bool}
    (h : classifyLocalPair env true entry s = .ok absent) :
    (∃ b m, s.segments.get entry.segment_path = some b ∧
      s.manifests.get entry.manifest_path = some m ∧
      validateLocalCatalogEntry env.codec entry s = .ok ()) ∨
    (s.segments.get entry.segment_path = none ∧ s.manifests.get entry.manifest_path = none) := by
  have hpaths := classify_paths h
  cases hsegment : s.segments.get entry.segment_path with
  | some b =>
    cases hmanifest : s.manifests.get entry.manifest_path with
    | some m =>
      rw [classify_both hpaths hprepared hsegment hmanifest, map_const_eq_ok] at h
      obtain ⟨⟨⟨⟩, hvalid⟩, -⟩ := h
      exact Or.inl ⟨b, m, rfl, rfl, hvalid⟩
    | none =>
      rw [classify_unfinished hpaths hprepared hsegment hmanifest] at h
      cases h
  | none =>
    cases hmanifest : s.manifests.get entry.manifest_path with
    | some m =>
      rw [classifyLocalPair, if_neg (by simp [hpaths.1, hpaths.2]), hprepared.staging,
        hprepared.target.sees, hsegment, hmanifest] at h
      cases h
    | none => exact Or.inr ⟨rfl, rfl⟩

theorem validateLocal_eq_ok {c : Codec} {m : SegmentManifest}
    (hsegment : s.segments.get entry.segment_path = some b)
    (hmanifest : s.manifests.get entry.manifest_path = some m) :
    validateLocalCatalogEntry c entry s = .ok () ↔
      (entry.segment_path.root = .archive ∨ entry.segment_path.root = .spool) ∧
        entry.manifest_path = entry.segment_path ∧ verifyManifest c entry.segment_path m b = .ok m ∧
        m.segment_sha256 = entry.segment_sha256 ∧ manifestSha c m = entry.manifest_sha256 := by
  rw [validateLocalCatalogEntry, hsegment, hmanifest]
  dsimp only
  by_cases hroot : entry.segment_path.root ≠ .archive ∧ entry.segment_path.root ≠ .spool
  · rw [if_pos hroot]
    simp [hroot.1, hroot.2]
  · rw [if_neg hroot]
    have hroots : entry.segment_path.root = .archive ∨ entry.segment_path.root = .spool := by
      tauto
    by_cases hpath : entry.manifest_path = entry.segment_path
    · rw [hpath] at hmanifest
      rw [if_neg (not_not.2 hpath), readVerifiedSegmentManifest, hmanifest, hsegment]
      dsimp only
      cases hverify : verifyManifest c entry.segment_path m b with
      | error e => simp [Except.map]
      | ok m' =>
        obtain rfl : m' = m := (verifyManifest_eq_ok.1 hverify).1
        dsimp only [Except.map]
        by_cases hsha : m'.segment_sha256 ≠ entry.segment_sha256 ∨
            manifestSha c m' ≠ entry.manifest_sha256
        · rw [if_pos hsha]
          simp only [reduceCtorEq, false_iff]
          tauto
        · rw [if_neg hsha]
          simp only [true_iff]
          tauto
    · rw [if_pos hpath]
      simp [hpath]

/-- The sources are those of the entry. -/
structure Sources (env : Env) (entry : RemoteSegmentEntry) (segment : Bytes)
    (manifest : SegmentManifest) : Prop where
  segment_sha : env.codec.sha256Hex segment = entry.segment_sha256
  manifest_sha : manifestSha env.codec manifest = entry.manifest_sha256

theorem importSegment_eq_ok (hsources : Sources env entry segment manifest)
    (hsame : SameFiles env entry segment manifest s) (hday : DayThere entry.segment_path s)
    (h : importSegment env.codec segment entry.segment_path entry.segment_sha256 s = .ok t) :
    t = { s with segments := s.segments.insert entry.segment_path segment } := by
  rw [importSegment, if_neg (not_not.2 hsources.segment_sha)] at h
  cases hget : s.segments.get entry.segment_path with
  | none =>
    rw [hget] at h
    cases h
    rw [Store.putSegment, ensureDay_of_there hday]
  | some b =>
    rw [hget] at h
    dsimp only at h
    split_ifs at h with hsha
    cases h
    rw [hsame.segment_eq b hget (not_not.1 hsha)] at hget
    rw [OrdMap.insert_eq_self hget]

theorem importManifest_eq_ok (hsources : Sources env entry segment manifest)
    (hsame : SameFiles env entry segment manifest s) (hday : DayThere entry.manifest_path s)
    (h : importManifest env.codec manifest entry.manifest_path entry.manifest_sha256 s = .ok t) :
    t = { s with manifests := s.manifests.insert entry.manifest_path manifest } := by
  rw [importManifest, if_neg (not_not.2 hsources.manifest_sha)] at h
  cases hget : s.manifests.get entry.manifest_path with
  | none =>
    rw [hget] at h
    cases h
    rw [Store.putManifest, ensureDay_of_there hday]
  | some m =>
    rw [hget] at h
    dsimp only at h
    split_ifs at h with hsha
    cases h
    rw [hsame.manifest_eq m hget (not_not.1 hsha)] at hget
    rw [OrdMap.insert_eq_self hget]

theorem importSegment_again (hsources : Sources env entry segment manifest)
    (hget : s.segments.get entry.segment_path = some segment) :
    importSegment env.codec segment entry.segment_path entry.segment_sha256 s = .ok s := by
  rw [importSegment, if_neg (not_not.2 hsources.segment_sha), hget]
  exact if_neg (not_not.2 rfl)

theorem importManifest_again (hsources : Sources env entry segment manifest)
    (hget : s.manifests.get entry.manifest_path = some manifest) :
    importManifest env.codec manifest entry.manifest_path entry.manifest_sha256 s = .ok s := by
  rw [importManifest, if_neg (not_not.2 hsources.manifest_sha), hget]
  exact if_neg (not_not.2 rfl)

/-! ### The index -/

/-- What the index transaction reads, and does. -/
structure IndexesTo (c : Codec) (entry : RemoteSegmentEntry) (segment : Bytes)
    (manifest : SegmentManifest) (projected : Bool) (frames : List SegmentFrame)
    (s t : Store) : Prop where
  verified : verifyManifest c entry.segment_path manifest segment = .ok manifest
  sha_eq : manifest.segment_sha256 = entry.segment_sha256
  scanned : ∃ kept, scanSegment c false segment = .ok (frames, kept)
  projection : validateSealedProjectionOn s.index entry true = .ok projected
  inserted : ∃ idx,
    (if projected then .ok s.index else insertFrames entry.segment_path frames s.index) = .ok idx ∧
    t = { s with
      index := idx.upsertSegmentManifestProjectionOn entry.segment_path
        entry.segment_path.segmentStorage manifest (some (bodyBytesOf frames)) }

theorem restoreIndex_iff {c : Codec} (hsegment : s.segments.get entry.segment_path = some segment)
    (hmanifest : s.manifests.get entry.segment_path = some manifest) :
    restoreIndex c entry s = .ok t ↔
      ∃ projected frames, IndexesTo c entry segment manifest projected frames s t := by
  rw [restoreIndex, hsegment]
  dsimp only
  rw [readVerifiedSegmentManifest, hmanifest, hsegment]
  dsimp only
  simp only [bind_eq_ok_iff, map_eq_ok_iff]
  constructor
  · rintro ⟨-, ⟨m, hverify, rfl⟩, h⟩
    obtain rfl := (verifyManifest_eq_ok.1 hverify).1
    dsimp only at h
    split_ifs at h with hsha
    obtain ⟨⟨frames, kept⟩, hscan, h⟩ := bind_eq_ok_iff.1 h
    obtain ⟨projected, hprojected, h⟩ := bind_eq_ok_iff.1 h
    obtain ⟨idx, hidx, h⟩ := bind_eq_ok_iff.1 h
    cases h
    exact ⟨projected, frames, hverify, not_not.1 hsha, ⟨kept, hscan⟩, hprojected, idx, hidx, rfl⟩
  · rintro ⟨projected, frames, hverify, hsha, ⟨kept, hscan⟩, hprojected, idx, hidx, rfl⟩
    refine ⟨_, ⟨manifest, hverify, rfl⟩, ?_⟩
    dsimp only
    rw [if_neg (not_not.2 hsha), bind_eq_ok_iff]
    refine ⟨_, hscan, ?_⟩
    rw [bind_eq_ok_iff]
    refine ⟨_, hprojected, ?_⟩
    rw [bind_eq_ok_iff]
    exact ⟨_, hidx, rfl⟩

theorem projection_of_upsert (hcat : Catalogued entry manifest)
    (hsha : manifest.segment_sha256 = entry.segment_sha256) (idx : Index) (bytes : ℕ) :
    validateSealedProjectionOn
      (idx.upsertSegmentManifestProjectionOn entry.segment_path entry.segment_path.segmentStorage
        manifest (some bytes)) entry true = .ok true := by
  rw [Index.upsertSegmentManifestProjectionOn, hcat.first_eq, hcat.last_eq]
  dsimp only
  rw [validateSealedProjectionOn]
  simp only [KeyedLog.find_upsert, Index.manifestRow, if_true]
  cases idx.segments.find entry.segment_path with
  | none => simp [hcat.is_sealed, hcat.bytes_eq, hcat.count_eq, hsha]
  | some row => simp [hcat.is_sealed, hcat.bytes_eq, hcat.count_eq, hsha]

theorem upsert_again (hcat : Catalogued entry manifest) (idx : Index) (path : Path) (st : Storage)
    (bytes : ℕ) :
    (idx.upsertSegmentManifestProjectionOn path st manifest (some bytes)).upsertSegmentManifestProjectionOn
        path st manifest (some bytes) =
      idx.upsertSegmentManifestProjectionOn path st manifest (some bytes) := by
  simp only [Index.upsertSegmentManifestProjectionOn, hcat.first_eq, hcat.last_eq]
  congr 1
  refine KeyedLog.upsert_upsert_self ?_ ?_
  · by_cases hpos : bytes > 0
    · simp [Index.manifestRow, hpos]
    · simp [Index.manifestRow, hpos]
  · intro row
    by_cases hpos : bytes > 0
    · simp [Index.manifestRow, hpos]
    · simp [Index.manifestRow, hpos]

theorem insertFrames_find (h : insertFrames path frames idx = .ok idx') :
    (∀ id r, idx.events.find id = some r → idx'.events.find id = some r) ∧
      ∀ f ∈ frames, idx'.events.find f.record.event_id =
        some (Index.relocate path path.segmentStorage f.record) := by
  induction frames generalizing idx with
  | nil =>
    cases h
    exact ⟨fun _ _ h => h, by simp⟩
  | cons f frames ih =>
    rw [insertFrames] at h
    cases hinsert : idx.insertRecordOn (Index.relocate path path.segmentStorage f.record) with
    | mk mid error =>
      rw [hinsert] at h
      cases error with
      | some e => cases h
      | none =>
        obtain ⟨hkeep, hall⟩ := ih h
        rw [Index.insertRecordOn] at hinsert
        cases hnew : idx.events.insertNew (Index.relocate path path.segmentStorage f.record) with
        | none =>
          rw [hnew] at hinsert
          cases hinsert
        | some events =>
          rw [hnew] at hinsert
          cases hinsert
          obtain ⟨hfree, rfl⟩ := KeyedLog.insertNew_eq_some.1 hnew
          rw [List.forall_mem_cons]
          refine ⟨fun id r hfind => hkeep id r ?_, hkeep _ _ ?_, hall⟩
          · dsimp only
            rw [KeyedLog.find_insertOrIgnore, hfind]
            rfl
          · have hself := KeyedLog.find_insertOrIgnore idx.events
              (Index.relocate path path.segmentStorage f.record)
              (Index.relocate path path.segmentStorage f.record).event_id
            rw [if_pos rfl, hfree] at hself
            exact hself

theorem insertFrames_segments
    (h : insertFrames path frames idx = .ok idx') : idx'.segments = idx.segments := by
  induction frames generalizing idx with
  | nil =>
    cases h
    rfl
  | cons f frames ih =>
    rw [insertFrames, Index.insertRecordOn] at h
    cases hnew : idx.events.insertNew (Index.relocate path path.segmentStorage f.record) with
    | none =>
      rw [hnew] at h
      cases h
    | some events =>
      rw [hnew] at h
      dsimp only at h
      rw [ih h]
      rfl

theorem indexed_of_find (h : ∀ f ∈ frames, idx.events.find f.record.event_id =
      some (Index.relocate path path.segmentStorage f.record)) : Indexed path frames idx := by
  intro f hf
  rw [KeyedLog.filter_key, h f hf]
  rfl

@[simp] theorem events_upsert (idx : Index) (path : Path) (st : Storage) (m : SegmentManifest)
    (bytes : Option ℕ) :
    (idx.upsertSegmentManifestProjectionOn path st m bytes).events = idx.events := by
  rw [Index.upsertSegmentManifestProjectionOn]
  split
  · rfl
  · rfl

/-! ### One restore -/

theorem Settled.congr (h : Settled s) (hcatalog : t.catalog = s.catalog)
    (hindex : t.index = s.index) : Settled t := by
  intro sha entry hget
  rw [hcatalog] at hget
  rw [hindex]
  exact h sha entry hget

theorem settledEntry_of_imp
    (h : e.state = .verifiedLocal → projectedAtDest e idx' = true → projectedAtDest e idx = true)
    (hsettled : settledEntry e idx = true) : settledEntry e idx' = true := by
  rw [settledEntry] at hsettled ⊢
  cases hstate : e.state with
  | verifiedLocal =>
    rw [hstate] at hsettled
    have himp := h hstate
    dsimp only at hsettled ⊢
    simp only [Bool.not_eq_true', decide_eq_false_iff_not, not_and] at hsettled ⊢
    exact fun hroot hdest => hsettled hroot (himp hdest)
  | reclaiming =>
    rw [hstate] at hsettled
    exact hsettled
  | remoteOnly =>
    rw [hstate] at hsettled
    cases hdir : e.reclaim_staging_dir with
    | none => rfl
    | some dir =>
      rw [hdir] at hsettled
      cases hsettled

/-- A row that the transaction leaves, at another segment's path or with another checksum. -/
theorem projectedAtDest_upsert {st : Storage}
    {bytes : Option ℕ} (hne : manifest.segment_sha256 ≠ e.segment_sha256)
    (h : projectedAtDest e (idx.upsertSegmentManifestProjectionOn path st manifest bytes) = true) :
    projectedAtDest e idx = true := by
  rw [Index.upsertSegmentManifestProjectionOn] at h
  cases hfirst : manifest.first_observed_at_unix_ms with
  | none => simpa [hfirst] using h
  | some first =>
    cases hlast : manifest.last_observed_at_unix_ms with
    | none => simpa [hfirst, hlast] using h
    | some last =>
      rw [hfirst, hlast] at h
      dsimp only at h
      rw [projectedAtDest, KeyedLog.find_upsert] at h
      by_cases hdest : recoveredDest e = path
      · subst hdest
        cases hfind : idx.segments.find (recoveredDest e) with
        | none => simp [hfind, Index.manifestRow, hne] at h
        | some row => simp [hfind, Index.manifestRow, hne] at h
      · rw [if_neg (show ¬ recoveredDest e = (Index.manifestRow path st manifest
          (bytes.getD manifest.body_bytes) first last).segment_path from hdest)] at h
        exact h

/-- The row of a segment that was remote does not unsettle another one. -/
theorem Settled.upsert (h : Settled s)
    (hget : s.catalog.get entry.segment_sha256 = some entry) (hstate : entry.state = .remoteOnly)
    (hsha : manifest.segment_sha256 = entry.segment_sha256)
    (hidx : idx.segments = s.index.segments) {st : Storage} {bytes : Option ℕ}
    (hcatalog : t.catalog = s.catalog)
    (hindex : t.index = idx.upsertSegmentManifestProjectionOn entry.segment_path st manifest bytes) :
    Settled t := by
  intro sha e he
  rw [hcatalog] at he
  obtain ⟨hkey, hvalid, hsettled⟩ := h sha e he
  refine ⟨hkey, hvalid, settledEntry_of_imp (fun hlocal hdest => ?_) hsettled⟩
  have hne : manifest.segment_sha256 ≠ e.segment_sha256 := by
    intro heq
    -- the entry with this checksum is the remote one
    rw [hkey, ← heq, hsha, hget, Option.some_inj] at he
    rw [← he, hstate] at hlocal
    cases hlocal
  rw [hindex] at hdest
  have hold := projectedAtDest_upsert hne hdest
  rw [projectedAtDest, hidx] at hold
  exact hold

theorem readCatalogEntry_of_get {catalog : OrdMap Sha RemoteSegmentEntry} {sha : Sha}
    (h : readCatalogEntry catalog sha = .ok e) :
    catalog.get sha = some e := by
  rw [readCatalogEntry] at h
  split_ifs at h
  cases hget : catalog.get sha with
  | none =>
    rw [hget] at h
    cases h
  | some e' =>
    rw [hget] at h
    dsimp only at h
    rw [map_const_eq_ok] at h
    rw [h.2]

/-- What a restore of a remote segment went through. -/
theorem run_inv {sha : Sha} (hsettled : Settled s) (hget : s.catalog.get sha = some entry)
    (hstate : entry.state = .remoteOnly)
    (hrun : restoreRemoteSegment env sha segment manifest s = (t, none)) :
    readCatalogEntry s.catalog sha = .ok entry ∧ Sources env entry segment manifest ∧
      ∃ s₁ absent projected, Prepares env entry s s₁ ∧
        classifyLocalPair env true entry s₁ = .ok absent ∧
        validateSealedProjectionOn s₁.index entry true = .ok projected ∧
        Effects.perform s₁ (restoreCommit env entry segment manifest) = (t, none) := by
  rw [restoreRemoteSegment, recover_settled hsettled] at hrun
  dsimp only at hrun
  cases hread : readCatalogEntry s.catalog sha with
  | error e =>
    rw [hread] at hrun
    cases hrun
  | ok e =>
    obtain rfl : entry = e := by
      rw [readCatalogEntry_of_get hread] at hget
      exact (Option.some.inj hget).symm
    rw [hread] at hrun
    dsimp only at hrun
    by_cases hsegment : env.codec.sha256Hex segment ≠ entry.segment_sha256
    · rw [if_pos hsegment] at hrun
      cases hrun
    · rw [if_neg hsegment] at hrun
      by_cases hmanifest : manifestSha env.codec manifest ≠ entry.manifest_sha256
      · rw [if_pos hmanifest] at hrun
        cases hrun
      · rw [if_neg hmanifest, if_neg (by rw [hstate]; simp)] at hrun
        refine ⟨rfl, ⟨not_not.1 hsegment, not_not.1 hmanifest⟩, ?_⟩
        cases hprep : Effects.perform s (restoreIntent env entry) with
        | mk s₁ refusal =>
          rw [hprep] at hrun
          cases refusal with
          | some e => cases hrun
          | none =>
            dsimp only at hrun
            cases hclass : classifyLocalPair env true entry s₁ with
            | error e =>
              rw [hclass] at hrun
              cases hrun
            | ok absent =>
              rw [hclass] at hrun
              cases hproj : validateSealedProjectionOn s₁.index entry true with
              | error e =>
                rw [hproj] at hrun
                cases hrun
              | ok projected =>
                rw [hproj] at hrun
                dsimp only at hrun
                rw [if_neg (by rw [hstate]; simp),
                  if_neg (not_not.2 (classify_paths hclass).1)] at hrun
                exact ⟨s₁, absent, projected, prepare_iff.1 hprep, hclass, hproj, hrun⟩

section Again

variable {sha : Sha} (hsettled : Settled s) (hread : readCatalogEntry s.catalog sha = .ok entry)
  (hsources : Sources env entry segment manifest) (hstate : entry.state = .remoteOnly)
  (hprep : Prepares env entry s s₁)

include hsettled hread hsources hstate hprep

/-- A restore whose checks pass is its copies, its index transaction and its catalog entry. -/
theorem run_eq {absent projected : Bool}
    (hclass : classifyLocalPair env true entry s₁ = .ok absent)
    (hproj : validateSealedProjectionOn s₁.index entry true = .ok projected) :
    restoreRemoteSegment env sha segment manifest s =
      Effects.perform s₁ (restoreCommit env entry segment manifest) := by
  rw [restoreRemoteSegment, recover_settled hsettled]
  dsimp only
  rw [hread]
  dsimp only
  rw [if_neg (not_not.2 hsources.segment_sha), if_neg (not_not.2 hsources.manifest_sha),
    if_neg (by rw [hstate]; simp), prepare_iff.2 hprep]
  dsimp only
  rw [hclass, hproj]
  dsimp only
  rw [if_neg (by rw [hstate]; simp), if_neg (not_not.2 (classify_paths hclass).1)]

theorem run_refused {e : Error} (hclass : classifyLocalPair env true entry s₁ = .error e) :
    restoreRemoteSegment env sha segment manifest s = (s₁, some e) := by
  rw [restoreRemoteSegment, recover_settled hsettled]
  dsimp only
  rw [hread]
  dsimp only
  rw [if_neg (not_not.2 hsources.segment_sha), if_neg (not_not.2 hsources.manifest_sha),
    if_neg (by rw [hstate]; simp), prepare_iff.2 hprep]
  dsimp only
  rw [hclass]

end Again

/-! ### The states that a crash leaves -/

/-- The store with the segment's file. -/
def withSegment (entry : RemoteSegmentEntry) (segment : Bytes) (s : Store) : Store :=
  { s with segments := s.segments.insert entry.segment_path segment }

/-- The store with both files. -/
def withPair (entry : RemoteSegmentEntry) (segment : Bytes) (manifest : SegmentManifest)
    (s : Store) : Store :=
  { withSegment entry segment s with
    manifests := s.manifests.insert entry.manifest_path manifest }

/-- What the effects before the copies leave as it was. -/
theorem Prepares.same (h : Prepares env entry s s₁) :
    s₁.segments = s.segments ∧ s₁.manifests = s.manifests ∧ s₁.index = s.index ∧
      s₁.catalog = s.catalog := by
  obtain ⟨custody, cu, rfl, -, -⟩ := registerOwner_eq_ok h.owner
  rw [Store.ensureDay]
  split_ifs
  · exact ⟨rfl, rfl, rfl, rfl⟩
  · exact ⟨rfl, rfl, rfl, rfl⟩

theorem SameFiles.congr {u : Store} (h : SameFiles env entry segment manifest s)
    (hsegments : u.segments = s.segments) (hmanifests : u.manifests = s.manifests) :
    SameFiles env entry segment manifest u :=
  ⟨fun b hb => h.segment_eq b (by rw [← hsegments]; exact hb),
    fun m hm => h.manifest_eq m (by rw [← hmanifests]; exact hm)⟩

/-- What the copies and the transactions leave, one after the other. -/
structure Commits (env : Env) (entry : RemoteSegmentEntry) (segment : Bytes)
    (manifest : SegmentManifest) (s₁ s₈ t : Store) : Prop where
  copied : importSegment env.codec segment entry.segment_path entry.segment_sha256 s₁ =
    .ok (withSegment entry segment s₁)
  paired : importManifest env.codec manifest entry.manifest_path entry.manifest_sha256
    (withSegment entry segment s₁) = .ok (withPair entry segment manifest s₁)
  indexed : restoreIndex env.codec entry (withPair entry segment manifest s₁) = .ok s₈
  written : writeCatalogEntry (entry.become .verifiedLocal none) s₈ = .ok t

theorem commits_of_perform (hsources : Sources env entry segment manifest)
    (hpath : entry.manifest_path = entry.segment_path) (hprepared : Prepared env entry s₁)
    (hsame : SameFiles env entry segment manifest s₁)
    (h : Effects.perform s₁ (restoreCommit env entry segment manifest) = (t, none)) :
    ∃ s₈, Commits env entry segment manifest s₁ s₈ t := by
  simp only [restoreCommit, Effects.perform_cons_none, Effects.perform_nil, Prod.mk.injEq,
    and_true] at h
  obtain ⟨s₆, hcopied, s₇, hpaired, s₈, hindexed, t', hwritten, rfl⟩ := h
  have hs₆ : s₆ = withSegment entry segment s₁ :=
    importSegment_eq_ok hsources hsame hprepared.day hcopied
  subst hs₆
  have hsame₆ : SameFiles env entry segment manifest (withSegment entry segment s₁) :=
    ⟨fun b hb _ => by simpa [withSegment, eq_comm] using hb, hsame.manifest_eq⟩
  have hday : DayThere entry.manifest_path (withSegment entry segment s₁) := by
    rw [hpath]
    exact hprepared.day
  have hs₇ : s₇ = withPair entry segment manifest s₁ :=
    importManifest_eq_ok hsources hsame₆ hday hpaired
  subst hs₇
  exact ⟨s₈, hcopied, hpaired, hindexed, hwritten⟩

theorem crashed_cases (hprep : Prepares env entry s s₁)
    (hcommits : Commits env entry segment manifest s₁ s₈ t) {k : ℕ}
    (hk : k < (effects env entry segment manifest).length) :
    (k < betweenCopies env entry ∧
      Prepares env entry (restoreCrashed env entry segment manifest k s) s₁ ∧
      (restoreCrashed env entry segment manifest k s).catalog = s.catalog ∧
      (restoreCrashed env entry segment manifest k s).index = s.index) ∨
    (k = betweenCopies env entry ∧
      restoreCrashed env entry segment manifest k s = withSegment entry segment s₁) ∨
    (k = betweenCopies env entry + 1 ∧
      restoreCrashed env entry segment manifest k s = withPair entry segment manifest s₁) ∨
    (k = betweenCopies env entry + 2 ∧
      restoreCrashed env entry segment manifest k s = s₈) := by
  have htarget := validateRestoreTarget_eq_ok.2
    ⟨hprep.target, (rfl : s.ensureDay entry.segment_path = s.ensureDay entry.segment_path)⟩
  have howner := hprep.owner
  have hreceipt := hprep.receipt
  have hstaging := hprep.staging
  obtain ⟨hcopied, hpaired, hindexed, -⟩ := hcommits
  have hday : (s.ensureDay entry.segment_path).catalog = s.catalog ∧
      (s.ensureDay entry.segment_path).index = s.index := by
    rw [Store.ensureDay]
    split_ifs
    · exact ⟨rfl, rfl⟩
    · exact ⟨rfl, rfl⟩
  have hs₁ := hprep.same.2.2
  have hlen : (effects env entry segment manifest).length = 9 := rfl
  have hbetween : betweenCopies env entry = 6 := rfl
  rw [hlen] at hk
  rw [hbetween]
  simp only [restoreCrashed, Effects.crashed, effects, restoreIntent, restoreCommit,
    List.cons_append, List.nil_append]
  interval_cases k
  · exact Or.inl ⟨by decide, hprep, rfl, rfl⟩
  · simp only [List.take_succ_cons, List.take_zero, Effects.perform, htarget]
    exact Or.inl ⟨by decide, hprep.of_ensureDay, hday.1, hday.2⟩
  · simp only [List.take_succ_cons, List.take_zero, Effects.perform, htarget, hprep.unlocked,
      Bool.false_eq_true, if_false]
    exact Or.inl ⟨by decide, hprep.of_ensureDay, hday.1, hday.2⟩
  · simp only [List.take_succ_cons, List.take_zero, Effects.perform, htarget, hprep.unlocked,
      Bool.false_eq_true, if_false, howner]
    exact Or.inl ⟨by decide, hprep.prepared.again, hs₁.2, hs₁.1⟩
  · simp only [List.take_succ_cons, List.take_zero, Effects.perform, htarget, hprep.unlocked,
      Bool.false_eq_true, if_false, howner, hreceipt, Except.map]
    exact Or.inl ⟨by decide, hprep.prepared.again, hs₁.2, hs₁.1⟩
  · simp only [List.take_succ_cons, List.take_zero, Effects.perform, htarget, hprep.unlocked,
      Bool.false_eq_true, if_false, howner, hreceipt, hstaging, Except.map]
    exact Or.inl ⟨by decide, hprep.prepared.again, hs₁.2, hs₁.1⟩
  · simp only [List.take_succ_cons, List.take_zero, Effects.perform, htarget, hprep.unlocked,
      Bool.false_eq_true, if_false, howner, hreceipt, hstaging, Except.map, hcopied]
    exact Or.inr (Or.inl ⟨by decide, trivial⟩)
  · simp only [List.take_succ_cons, List.take_zero, Effects.perform, htarget, hprep.unlocked,
      Bool.false_eq_true, if_false, howner, hreceipt, hstaging, Except.map, hcopied, hpaired]
    exact Or.inr (Or.inr (Or.inl ⟨by decide, trivial⟩))
  · simp only [List.take_succ_cons, List.take_zero, Effects.perform, htarget, hprep.unlocked,
      Bool.false_eq_true, if_false, howner, hreceipt, hstaging, Except.map, hcopied, hpaired,
      hindexed]
    exact Or.inr (Or.inr (Or.inr ⟨by decide, trivial⟩))

theorem get_withPair (entry : RemoteSegmentEntry) (segment : Bytes) (manifest : SegmentManifest)
    (s : Store) :
    (withPair entry segment manifest s).segments.get entry.segment_path = some segment ∧
      (withPair entry segment manifest s).manifests.get entry.manifest_path = some manifest := by
  simp [withPair, withSegment]

theorem restoreIndex_again (hcat : Catalogued entry manifest)
    (hpath : entry.manifest_path = entry.segment_path)
    (h : restoreIndex env.codec entry (withPair entry segment manifest s₁) = .ok s₈) :
    (s₈.segments = (withPair entry segment manifest s₁).segments ∧
      s₈.manifests = (withPair entry segment manifest s₁).manifests) ∧
    validateSealedProjectionOn s₈.index entry true = .ok true ∧
    restoreIndex env.codec entry s₈ = .ok s₈ := by
  obtain ⟨hsegment, hmanifest⟩ := get_withPair entry segment manifest s₁
  rw [hpath] at hmanifest
  obtain ⟨projected, frames, hverify, hsha, hscan, -, idx, -, rfl⟩ :=
    (restoreIndex_iff hsegment hmanifest).1 h
  have hproj := projection_of_upsert hcat hsha idx (bodyBytesOf frames)
  refine ⟨⟨rfl, rfl⟩, hproj, ?_⟩
  refine (restoreIndex_iff (by exact hsegment) (by exact hmanifest)).2
    ⟨true, frames, hverify, hsha, hscan, hproj, _, rfl, ?_⟩
  rw [upsert_again hcat]

theorem row_of_projection (h : validateSealedProjectionOn idx entry true = .ok true) :
    (idx.segments.find entry.segment_path).isSome := by
  rw [validateSealedProjectionOn] at h
  cases hfind : idx.segments.find entry.segment_path with
  | some row => rfl
  | none =>
    rw [hfind] at h
    dsimp only at h
    rw [if_pos rfl] at h
    split_ifs at h
    cases h

theorem restored_of_commits (hpath : entry.manifest_path = entry.segment_path)
    (hrow : ∀ frames kept, (s₁.index.segments.find entry.segment_path).isSome →
      scanSegment env.codec false segment = .ok (frames, kept) →
      Indexed entry.segment_path frames s₁.index)
    (h : Commits env entry segment manifest s₁ s₈ t) : Restored env entry segment manifest t := by
  obtain ⟨hsegment, hmanifest⟩ := get_withPair entry segment manifest s₁
  obtain ⟨-, -, hindexed, hwritten⟩ := h
  have ht := writeCatalogEntry_eq_ok hwritten
  obtain ⟨projected, frames, -, -, ⟨kept, hscan⟩, hproj, idx, hidx, rfl⟩ :=
    (restoreIndex_iff hsegment (by rw [← hpath]; exact hmanifest)).1 hindexed
  subst ht
  refine ⟨hsegment, hmanifest, ⟨frames, kept, hscan, ?_⟩, ?_⟩
  · have hevents : Indexed entry.segment_path frames idx := by
      cases projected with
      | false => exact indexed_of_find (insertFrames_find hidx).2
      | true =>
        cases hidx
        refine hrow frames kept ?_ hscan
        exact row_of_projection hproj
    intro f hf
    rw [events_upsert]
    exact hevents f hf
  · rw [OrdMap.get_insert]
    exact if_pos rfl

/-- Behind the copy of the segment, and before the copy of the manifest, the pair is refused. -/
theorem refused_between {sha : Sha} (hsettled : Settled s) (hget : s.catalog.get sha = some entry)
    (hstate : entry.state = .remoteOnly) (hsame : SameFiles env entry segment manifest s)
    (hrun : restoreRemoteSegment env sha segment manifest s = (t, none))
    (habsent : ¬ PairPresent entry s) :
    ∃ u, restoreRemoteSegment env sha segment manifest
      (restoreCrashed env entry segment manifest (betweenCopies env entry) s) =
        (u, some "capture pair is only partially absent") := by
  obtain ⟨hread, hsources, s₁, absent, projected, hprep, hclass, hproj, hperform⟩ :=
    run_inv hsettled hget hstate hrun
  obtain ⟨hpaths, hfile⟩ := classify_paths hclass
  obtain ⟨hsegments, hmanifests, hindex, hcatalog⟩ := hprep.same
  obtain ⟨s₈, hcommits⟩ := commits_of_perform hsources hpaths hprep.prepared
    (hsame.congr hsegments hmanifests) hperform
  have hlength : (effects env entry segment manifest).length = 9 := rfl
  have hbetween : betweenCopies env entry = 6 := rfl
  have hcrashed : restoreCrashed env entry segment manifest (betweenCopies env entry) s =
      withSegment entry segment s₁ := by
    rcases crashed_cases hprep hcommits (k := betweenCopies env entry) (by omega) with
      ⟨hlt, -⟩ | ⟨-, hu⟩ | ⟨heq, -⟩ | ⟨heq, -⟩
    · omega
    · exact hu
    · omega
    · omega
  have hmanifest : s₁.manifests.get entry.manifest_path = none := by
    rcases classify_ok hprep.prepared hclass with ⟨b, m, hb, hm, -⟩ | ⟨-, hm⟩
    · refine absurd ?_ habsent
      rw [PairPresent, ← hsegments, ← hmanifests, hb, hm]
      exact ⟨rfl, rfl⟩
    · exact hm
  have hprep₆ : Prepared env entry (withSegment entry segment s₁) :=
    hprep.prepared.with_files _ _ _
  have hsettled₆ : Settled (withSegment entry segment s₁) := hsettled.congr hcatalog hindex
  have hread₆ : readCatalogEntry (withSegment entry segment s₁).catalog sha = .ok entry := by
    rw [show (withSegment entry segment s₁).catalog = s.catalog from hcatalog]
    exact hread
  rw [hcrashed]
  exact ⟨_, run_refused hsettled₆ hread₆ hsources hstate hprep₆.again
    (classify_unfinished ⟨hpaths, hfile⟩ hprep₆ (b := segment) (by simp [withSegment]) hmanifest)⟩

/-- **A restore can be called again** after every crash but one, behind the copy of the segment and
before the copy of the manifest, unless both files were there from the start. -/
theorem restore_retryable_iff {sha : Sha} {k : ℕ} (hsettled : Settled s)
    (hget : s.catalog.get sha = some entry) (hstate : entry.state = .remoteOnly)
    (hcat : Catalogued entry manifest) (hsame : SameFiles env entry segment manifest s)
    (hrow : ∀ frames kept, (s.index.segments.find entry.segment_path).isSome →
      scanSegment env.codec false segment = .ok (frames, kept) →
      Indexed entry.segment_path frames s.index)
    (hrun : restoreRemoteSegment env sha segment manifest s = (t, none))
    (hk : k < (effects env entry segment manifest).length) :
    (∃ u, restoreRemoteSegment env sha segment manifest
        (restoreCrashed env entry segment manifest k s) = (u, none) ∧
      Restored env entry segment manifest u) ↔
        (k = betweenCopies env entry → PairPresent entry s) := by
  obtain ⟨hread, hsources, s₁, absent, projected, hprep, hclass, hproj, hperform⟩ :=
    run_inv hsettled hget hstate hrun
  obtain ⟨hpaths, hfile⟩ := classify_paths hclass
  obtain ⟨hsegments, hmanifests, hindex, hcatalog⟩ := hprep.same
  have hprepared := hprep.prepared
  have hsame₁ := hsame.congr hsegments hmanifests
  obtain ⟨s₈, hcommits⟩ := commits_of_perform hsources hpaths hprepared hsame₁ hperform
  have hrestored : Restored env entry segment manifest t :=
    restored_of_commits hpaths (by rw [hindex]; exact hrow) hcommits
  have hentry : s₁.catalog.get entry.segment_sha256 = some entry := by
    rw [hcatalog, ← (hsettled sha entry hget).1]
    exact hget
  have hsettled₁ : Settled s₁ := hsettled.congr hcatalog hindex
  have hread₁ : readCatalogEntry s₁.catalog sha = .ok entry := by
    rw [hcatalog]
    exact hread
  obtain ⟨hfiles, hagain, hindexAgain⟩ := restoreIndex_again hcat hpaths hcommits.indexed
  obtain ⟨hgetSegment, hgetManifest⟩ := get_withPair entry segment manifest s₁
  -- a valid pair is found behind both copies
  obtain ⟨projected', frames, hindexes⟩ :=
    (restoreIndex_iff hgetSegment (by rw [← hpaths]; exact hgetManifest)).1 hcommits.indexed
  have hlocal {u : Store} (hsegment : u.segments.get entry.segment_path = some segment)
      (hmanifest : u.manifests.get entry.manifest_path = some manifest)
      (hu : Prepared env entry u) : classifyLocalPair env true entry u = .ok false := by
    rw [classify_both ⟨hpaths, hfile⟩ hu hsegment hmanifest,
      (validateLocal_eq_ok hsegment hmanifest).2 ⟨?_, hpaths, hindexes.verified, hindexes.sha_eq,
        hsources.manifest_sha⟩]
    · rfl
    · exact hprepared.target.imp And.left id
  rcases crashed_cases hprep hcommits hk with ⟨hlt, hu, hucat, huidx⟩ | ⟨rfl, hu⟩ | ⟨rfl, hu⟩ |
    ⟨rfl, hu⟩
  · -- before the copies, the second call does what the first one would have done
    have hne : k ≠ betweenCopies env entry := by omega
    refine iff_of_true ⟨t, ?_, hrestored⟩ fun heq => absurd heq hne
    rw [run_eq (hsettled.congr hucat huidx) (by rw [hucat]; exact hread) hsources hstate hu hclass
      hproj]
    exact hperform
  · by_cases hpresent : PairPresent entry s
    · -- both files were there, so the copy of the segment changed nothing
      refine iff_of_true ⟨t, ?_, hrestored⟩ fun _ => hpresent
      rw [hu]
      rcases classify_ok hprepared hclass with ⟨b, m, hb, hm, hvalid⟩ | ⟨hb, -⟩
      · obtain ⟨-, -, hverify, hsha, -⟩ := (validateLocal_eq_ok hb hm).1 hvalid
        have hbytes : b = segment := by
          refine hsame₁.segment_eq b hb ?_
          rw [hsources.segment_sha, ← hsha, (verifyManifest_eq_ok.1 hverify).2.2.2.2]
        subst hbytes
        rw [withSegment, OrdMap.insert_eq_self hb,
          run_eq hsettled₁ hread₁ hsources hstate hprepared.again hclass hproj]
        exact hperform
      · have hsome := hpresent.1
        rw [← hsegments, hb] at hsome
        cases hsome
    · obtain ⟨u, hrefused⟩ := refused_between hsettled hget hstate hsame hrun hpresent
      refine iff_of_false ?_ fun h => hpresent (h rfl)
      rintro ⟨v, hv, -⟩
      rw [hrefused] at hv
      cases hv
  · rw [hu]
    have hprep₇ : Prepared env entry (withPair entry segment manifest s₁) :=
      hprepared.with_files _ _ _
    have hsettled₇ : Settled (withPair entry segment manifest s₁) := hsettled₁.congr rfl rfl
    have hread₇ : readCatalogEntry (withPair entry segment manifest s₁).catalog sha =
        .ok entry := hread₁
    refine iff_of_true ⟨t, ?_, hrestored⟩ fun heq => by omega
    rw [run_eq hsettled₇ hread₇ hsources hstate hprep₇.again
      (hlocal hgetSegment hgetManifest hprep₇) hproj]
    rw [restoreCommit, Effects.perform_cons_ok (importSegment_again hsources hgetSegment),
      Effects.perform_cons_ok (importManifest_again hsources hgetManifest),
      Effects.perform_cons_ok hcommits.indexed, Effects.perform_cons_ok hcommits.written]
    rfl
  · rw [hu]
    obtain ⟨idx, hidx, hs₈⟩ := hindexes.inserted
    have hprep₈ : Prepared env entry s₈ := by
      rw [hs₈]
      exact hprepared.with_files _ _ _
    have hgetSegment₈ : s₈.segments.get entry.segment_path = some segment := by
      rw [hfiles.1]
      exact hgetSegment
    have hgetManifest₈ : s₈.manifests.get entry.manifest_path = some manifest := by
      rw [hfiles.2]
      exact hgetManifest
    have hcatalog₈ : s₈.catalog = s₁.catalog := by
      rw [hs₈]
      rfl
    have hsettled₈ : Settled s₈ := by
      have hsegments₈ : idx.segments = s₁.index.segments := by
        cases projected' with
        | false => exact insertFrames_segments hidx
        | true =>
          cases hidx
          rfl
      exact hsettled₁.upsert hentry hstate hindexes.sha_eq hsegments₈ hcatalog₈ (by rw [hs₈])
    refine iff_of_true ⟨t, ?_, hrestored⟩ fun heq => by omega
    rw [run_eq hsettled₈ (by rw [hcatalog₈]; exact hread₁) hsources hstate hprep₈.again
      (hlocal hgetSegment₈ hgetManifest₈ hprep₈) hagain]
    rw [restoreCommit, Effects.perform_cons_ok (importSegment_again hsources hgetSegment₈),
      Effects.perform_cons_ok (importManifest_again hsources hgetManifest₈),
      Effects.perform_cons_ok hindexAgain, Effects.perform_cons_ok hcommits.written]
    rfl

/-- A segment with one frame. -/
def helloFrames : List SegmentFrame := [⟨hello 386, [104, 105]⟩]

/-- The manifest of the segment. -/
def helloManifest : SegmentManifest :=
  { schema_version := segmentSchema
    segment_file := "1.sbcap"
    segment_sha256 := "805fcf08e1fe091f3ca4b30540550d9515a6458078b026435066b0d93b6cee3f"
    segment_bytes := 418
    record_count := 1
    body_bytes := 2
    first_observed_at_unix_ms := some 1000
    last_observed_at_unix_ms := some 1000
    sealed := true }

/-- The catalog entry of the segment, after its files were reclaimed. -/
def helloEntry : RemoteSegmentEntry :=
  { schema := remoteSegmentSchema
    state := .remoteOnly
    receipt_generation := 1
    segment_file := "1.sbcap"
    segment_path := .inArchive 0 "1.sbcap"
    manifest_path := .inArchive 0 "1.sbcap"
    segment_sha256 := "805fcf08e1fe091f3ca4b30540550d9515a6458078b026435066b0d93b6cee3f"
    manifest_sha256 := "dca745de4c9e8a9b69c96106b5ca055b11e83eef6c58939cdd34c845a99ab6f3"
    segment_bytes := 418
    record_count := 1
    first_observed_at_unix_ms := 1000
    last_observed_at_unix_ms := 1000
    utc_day := 0
    remote_root := "nas:/b"
    remote_path := "segments/1"
    remote_manifest_path := "segments/2"
    reclaim_staging_dir := none }

/-- The receipt that the entry names. -/
def helloReceipt : Receipt :=
  { schema := backupReceiptSchema
    generation := 1
    completed_at_unix_ms := 2000
    verified_through_day := none
    remote_root := "nas:/b"
    segments := [⟨helloEntry.segment_sha256, helloEntry.manifest_sha256, helloEntry.remote_path,
      helloEntry.remote_manifest_path, true⟩] }

/-- A store whose only segment is remote. -/
def remoteStore : Store :=
  { Store.empty with
    receipts := .insert .empty 1 helloReceipt
    catalog := .insert .empty helloEntry.segment_sha256 helloEntry }

theorem remoteStore_settled : Settled remoteStore := by
  intro sha e hget
  rw [remoteStore, OrdMap.get_insert] at hget
  split_ifs at hget with hsha
  · cases hget
    exact ⟨hsha, by decide +kernel, rfl⟩
  · cases hget

theorem eq_of_snd {α β : Type} {p : α × β} {b : β} (h : p.2 = b) : p = (p.1, b) := by
  rw [← h]

theorem remoteStore_restored :
    ∃ t, restoreRemoteSegment sampleEnv helloEntry.segment_sha256
      (segmentBytes .plain helloFrames) helloManifest remoteStore = (t, none) := by
  have hnone : (restoreRemoteSegment sampleEnv helloEntry.segment_sha256
      (segmentBytes .plain helloFrames) helloManifest remoteStore).2 = none := by decide +kernel
  exact ⟨_, eq_of_snd hnone⟩

theorem remoteStore_get :
    remoteStore.catalog.get helloEntry.segment_sha256 = some helloEntry := by
  rw [remoteStore, OrdMap.get_insert, if_pos rfl]

theorem remoteStore_catalogued : Catalogued helloEntry helloManifest :=
  ⟨rfl, rfl, rfl, rfl, rfl⟩

theorem remoteStore_sameFiles :
    SameFiles sampleEnv helloEntry (segmentBytes .plain helloFrames) helloManifest remoteStore :=
  ⟨fun _ hb _ => (by cases hb), fun _ hm _ => (by cases hm)⟩

theorem restore_retryable_hello :
    (∃ u, restoreRemoteSegment sampleEnv helloEntry.segment_sha256
        (segmentBytes .plain helloFrames) helloManifest
        (restoreCrashed sampleEnv helloEntry (segmentBytes .plain helloFrames) helloManifest
          (betweenCopies sampleEnv helloEntry + 1) remoteStore) = (u, none) ∧
      Restored sampleEnv helloEntry (segmentBytes .plain helloFrames) helloManifest u) ↔
        (betweenCopies sampleEnv helloEntry + 1 = betweenCopies sampleEnv helloEntry →
          PairPresent helloEntry remoteStore) := by
  obtain ⟨t, hrun⟩ := remoteStore_restored
  exact restore_retryable_iff remoteStore_settled remoteStore_get rfl remoteStore_catalogued
    remoteStore_sameFiles (fun _ _ hrow _ => by cases hrow) hrun (by decide)

theorem restore_not_retryable :
    ¬ ∀ (env : Env) (entry : RemoteSegmentEntry) (segment : Bytes) (manifest : SegmentManifest)
      (s t : Store) (sha : Sha) (k : ℕ), Settled s → s.catalog.get sha = some entry →
      entry.state = .remoteOnly → Catalogued entry manifest →
      SameFiles env entry segment manifest s →
      (∀ frames kept, (s.index.segments.find entry.segment_path).isSome →
        scanSegment env.codec false segment = .ok (frames, kept) →
        Indexed entry.segment_path frames s.index) →
      restoreRemoteSegment env sha segment manifest s = (t, none) →
      k < (effects env entry segment manifest).length →
      ∃ u, restoreRemoteSegment env sha segment manifest
          (restoreCrashed env entry segment manifest k s) = (u, none) ∧
        Restored env entry segment manifest u := by
  intro h
  obtain ⟨t, hrun⟩ := remoteStore_restored
  obtain ⟨u, hu, -⟩ := h sampleEnv helloEntry (segmentBytes .plain helloFrames) helloManifest
    remoteStore t helloEntry.segment_sha256 (betweenCopies sampleEnv helloEntry)
    remoteStore_settled remoteStore_get rfl remoteStore_catalogued remoteStore_sameFiles
    (fun _ _ hrow _ => by cases hrow) hrun (by decide)
  obtain ⟨v, hv⟩ := refused_between remoteStore_settled remoteStore_get rfl
    remoteStore_sameFiles hrun (fun hpresent => by cases hpresent.1)
  rw [hv] at hu
  cases hu

end Restore

end BodyLog

end Switchback
