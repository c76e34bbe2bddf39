import Switchback.BodyLog.Reclaim
import Switchback.Lib.Machine

/-!
# Accepted receipts stay

A segment that is only remote can come back as long as the receipt of its generation names it.
-/

namespace Switchback

namespace BodyLog

open Lib

/-- Every entry that is not verified locally has a matching receipt. -/
def Backed (s : Store) : Prop :=
  ∀ sha e, s.catalog.get sha = some e → e.state ≠ .verifiedLocal →
    validateAcceptedCatalogReceiptAt s.receipts e = .ok ()

/-- The receipt files are these, and every entry that is not verified locally has its receipt among
them. -/
structure Backs (receipts : OrdMap ℕ Receipt) (s : Store) : Prop where
  receipts_eq : s.receipts = receipts
  backed : ∀ sha e, s.catalog.get sha = some e → e.state ≠ .verifiedLocal →
    validateAcceptedCatalogReceiptAt receipts e = .ok ()

variable {s : Store} {entry : RemoteSegmentEntry} {env : Env} {p : Path} {c : Codec}
variable {dir : StagingDir} {sha : Sha}

theorem Backed.backs (h : Backed s) : Backs s.receipts s := ⟨rfl, h⟩

theorem Backs.toBacked {receipts : OrdMap ℕ Receipt} (h : Backs receipts s) : Backed s := by
  intro sha e he hstate
  rw [h.receipts_eq]
  exact h.backed sha e he hstate

/-! ### Effects that do not touch the backups -/

/-- The same receipts and the same catalog. -/
structure SameBackups (s s' : Store) : Prop where
  receipts_eq : s'.receipts = s.receipts
  catalog_eq : s'.catalog = s.catalog

theorem SameBackups.refl (s : Store) : SameBackups s s := ⟨rfl, rfl⟩

theorem SameBackups.trans {t u : Store} (h : SameBackups s t) (h' : SameBackups t u) :
    SameBackups s u := ⟨h'.1.trans h.1, h'.2.trans h.2⟩

variable {s' : Store}

theorem Backs.same {receipts : OrdMap ℕ Receipt} (h : Backs receipts s)
    (hs : SameBackups s s') : Backs receipts s' := by
  refine ⟨hs.receipts_eq.trans h.receipts_eq, ?_⟩
  rw [hs.catalog_eq]
  exact h.backed

/-- Any entry may be written that is verified locally or has its receipt. -/
theorem Backs.write {receipts : OrdMap ℕ Receipt}
    (h : Backs receipts s) (hs : writeCatalogEntry entry s = .ok s')
    (hentry : entry.state ≠ .verifiedLocal →
      validateAcceptedCatalogReceiptAt receipts entry = .ok ()) : Backs receipts s' := by
  rw [writeCatalogEntry_eq_ok hs]
  refine ⟨h.receipts_eq, fun sha e he hstate => ?_⟩
  simp only [OrdMap.get_insert] at he
  split_ifs at he with hsha
  · obtain rfl := Option.some.inj he
    exact hentry hstate
  · exact h.backed sha e he hstate

theorem sameBackups_ensureDay (s : Store) (p : Path) : SameBackups s (s.ensureDay p) := by
  unfold Store.ensureDay
  split_ifs
  · exact ⟨rfl, rfl⟩
  · exact .refl s

theorem sameBackups_putSegment (s : Store) (p : Path) (bytes : Bytes) :
    SameBackups s (s.putSegment p bytes) :=
  ⟨(sameBackups_ensureDay s p).1, (sameBackups_ensureDay s p).2⟩

theorem sameBackups_putManifest (s : Store) (p : Path) (m : SegmentManifest) :
    SameBackups s (s.putManifest p m) :=
  ⟨(sameBackups_ensureDay s p).1, (sameBackups_ensureDay s p).2⟩

theorem sameBackups_stage (s : Store) (dir : StagingDir) (b : Option Bytes)
    (m : Option SegmentManifest) : SameBackups s (s.stage dir b m) := ⟨rfl, rfl⟩

/-- A check changes nothing. -/
theorem sameBackups_check {α : Type} {check : Except Error α}
    (h : (check.map fun _ => s) = .ok s') : SameBackups s s' := by
  obtain ⟨-, -, rfl⟩ := map_eq_ok_iff.1 h
  exact .refl _

theorem sameBackups_validateRestoreTarget
    (h : validateRestoreTarget env p s = .ok s') : SameBackups s s' := by
  unfold validateRestoreTarget at h
  split at h
  · split_ifs at h
    obtain rfl := Except.ok.inj h
    exact sameBackups_ensureDay s p
  · obtain rfl := Except.ok.inj h
    exact .refl _
  · cases h

theorem sameBackups_registerOwner {created : Bool}
    (h : registerOwner env p created s = .ok s') : SameBackups s s' := by
  unfold registerOwner at h
  split at h
  · split_ifs at h
    · obtain rfl := Except.ok.inj h
      exact .refl _
    · obtain rfl := Except.ok.inj h
      exact ⟨rfl, rfl⟩
  · obtain rfl := Except.ok.inj h
    exact ⟨rfl, rfl⟩

theorem sameBackups_removeStagedSegment
    (h : removeStagedSegment c dir sha s = .ok s') : SameBackups s s' := by
  unfold removeStagedSegment at h
  split at h
  · obtain rfl := Except.ok.inj h
    exact .refl _
  · split_ifs at h
    obtain rfl := Except.ok.inj h
    exact sameBackups_stage _ _ _ _

theorem sameBackups_removeStagedManifest
    (h : removeStagedManifest c dir sha s = .ok s') : SameBackups s s' := by
  unfold removeStagedManifest at h
  split at h
  · obtain rfl := Except.ok.inj h
    exact .refl _
  · split_ifs at h
    obtain rfl := Except.ok.inj h
    exact sameBackups_stage _ _ _ _

theorem sameBackups_restoreStagedSegment
    (h : restoreStagedSegment c p dir sha s = .ok s') : SameBackups s s' := by
  unfold restoreStagedSegment at h
  split at h
  · split_ifs at h
    exact sameBackups_removeStagedSegment h
  · split at h
    · cases h
    · split_ifs at h
      obtain rfl := Except.ok.inj h
      exact (sameBackups_stage _ _ _ _).trans (sameBackups_putSegment _ _ _)

theorem sameBackups_restoreStagedManifest
    (h : restoreStagedManifest c p dir sha s = .ok s') : SameBackups s s' := by
  unfold restoreStagedManifest at h
  split at h
  · split_ifs at h
    exact sameBackups_removeStagedManifest h
  · split at h
    · cases h
    · split_ifs at h
      obtain rfl := Except.ok.inj h
      exact (sameBackups_stage _ _ _ _).trans (sameBackups_putManifest _ _ _)

theorem sameBackups_removeEmptyReclaimDirs
    (h : removeEmptyReclaimDirs dir s = .ok s') : SameBackups s s' := by
  obtain rfl := Except.ok.inj h
  exact ⟨rfl, rfl⟩

theorem sameBackups_retire {allow : Bool}
    (h : retireSegmentProjection entry allow s = .ok s') : SameBackups s s' := by
  obtain ⟨-, -, h⟩ := bind_eq_ok_iff.1 h
  obtain rfl := Except.ok.inj h
  exact ⟨rfl, rfl⟩

theorem sameBackups_stageSegment (h : stageSegment p dir s = .ok s') : SameBackups s s' := by
  unfold stageSegment at h
  split at h
  · cases h
  · obtain rfl := Except.ok.inj h
    exact ⟨rfl, rfl⟩

theorem sameBackups_stageManifest (h : stageManifest p dir s = .ok s') : SameBackups s s' := by
  unfold stageManifest at h
  split at h
  · cases h
  · obtain rfl := Except.ok.inj h
    exact ⟨rfl, rfl⟩

theorem sameBackups_importSegment {bytes : Bytes}
    (h : importSegment c bytes p sha s = .ok s') : SameBackups s s' := by
  unfold importSegment at h
  split_ifs at h
  split at h
  · split_ifs at h
    obtain rfl := Except.ok.inj h
    exact .refl _
  · obtain rfl := Except.ok.inj h
    exact sameBackups_putSegment _ _ _

theorem sameBackups_importManifest {m : SegmentManifest}
    (h : importManifest c m p sha s = .ok s') : SameBackups s s' := by
  unfold importManifest at h
  split_ifs at h
  split at h
  · split_ifs at h
    obtain rfl := Except.ok.inj h
    exact .refl _
  · obtain rfl := Except.ok.inj h
    exact sameBackups_putManifest _ _ _

theorem sameBackups_restoreIndex (h : restoreIndex c entry s = .ok s') : SameBackups s s' := by
  unfold restoreIndex at h
  split at h
  · cases h
  · obtain ⟨found, -, h⟩ := bind_eq_ok_iff.1 h
    split at h
    · cases h
    · split_ifs at h
      obtain ⟨_, -, h⟩ := bind_eq_ok_iff.1 h
      obtain ⟨_, -, h⟩ := bind_eq_ok_iff.1 h
      obtain ⟨_, -, h⟩ := bind_eq_ok_iff.1 h
      obtain rfl := Except.ok.inj h
      exact ⟨rfl, rfl⟩

/-! ### Recovery, reclaim and restore -/

section Operations

variable {receipts : OrdMap ℕ Receipt}

variable {s : Store} {entry : RemoteSegmentEntry} {env : Env} {peers : Peers}
variable {proof : ReclaimProof}

theorem Backs.relocate {c : Codec} {src dest : Path} {sha : Sha} {s' : Store}
    (h : Backs receipts s) (hs : relocateBackedSpoolSegment c src dest sha s = .ok s') :
    Backs receipts s' := by
  unfold relocateBackedSpoolSegment at hs
  split_ifs at hs
  split at hs
  · obtain rfl := Except.ok.inj hs
    exact h
  · rename_i entry _
    obtain ⟨-, -, hs⟩ := bind_eq_ok_iff.1 hs
    split at hs
    · cases hs
    · rename_i hok
      obtain ⟨-, -, hs⟩ := bind_eq_ok_iff.1 hs
      obtain ⟨-, -, hs⟩ := bind_eq_ok_iff.1 hs
      exact h.write hs fun hstate => absurd (Or.inl hstate) hok

theorem Backs.cleanup {dir : StagingDir}
    (h : Backs receipts s) (hentry : validateAcceptedCatalogReceiptAt receipts entry = .ok ()) :
    Backs receipts (Effects.perform s (settleEffects env entry dir)).1 := by
  refine Effects.perform_inv (fun f hf t t' ht hft => ?_) h
  simp only [settleEffects, cleanupEffects, List.mem_cons, List.not_mem_nil, or_false] at hf
  rcases hf with rfl | rfl | rfl | rfl | rfl | rfl
  · exact ht.write hft fun _ => hentry
  · exact ht.same (sameBackups_validateRestoreTarget hft)
  · exact ht.same (sameBackups_removeStagedSegment hft)
  · exact ht.same (sameBackups_removeStagedManifest hft)
  · exact ht.same (sameBackups_removeEmptyReclaimDirs hft)
  · exact ht.write hft fun _ => hentry

theorem Backs.putBack {dir : StagingDir}
    (h : Backs receipts s) : Backs receipts (Effects.perform s (restoreEffects env entry dir)).1 := by
  refine Effects.perform_inv (fun f hf t t' ht hft => ?_) h
  simp only [restoreEffects, List.mem_cons, List.not_mem_nil, or_false] at hf
  rcases hf with rfl | rfl | rfl | rfl | rfl
  · exact ht.same (sameBackups_restoreStagedSegment hft)
  · exact ht.same (sameBackups_restoreStagedManifest hft)
  · exact ht.same (sameBackups_check hft)
  · exact ht.same (sameBackups_removeEmptyReclaimDirs hft)
  · exact ht.write hft fun hstate => absurd rfl hstate

theorem Backs.recoverIntent (h : Backs receipts s) (hentry : entry.state ≠ .verifiedLocal →
      validateAcceptedCatalogReceiptAt receipts entry = .ok ()) :
    Backs receipts (recoverIntent env entry s).1 := by
  -- an intent is settled one way or the other
  have hintent : ∀ {d : StagingDir}, entry.state ≠ .verifiedLocal →
      entry.reclaim_staging_dir = some d → Backs receipts (BodyLog.recoverIntent env entry s).1 := by
    intro d hstate hdir
    unfold BodyLog.recoverIntent
    cases hst : entry.state with
    | verifiedLocal => exact absurd hst hstate
    | _ =>
      simp only [hdir]
      split
      · exact h
      · split
        · exact h
        · rename_i hs'
          have h' := h.same (sameBackups_validateRestoreTarget hs')
          split_ifs
          · exact h'
          · exact h'.putBack
          · exact h'.cleanup (hentry hstate)
  cases hst : entry.state with
  | verifiedLocal =>
    unfold BodyLog.recoverIntent
    rw [hst]
    dsimp only
    split_ifs
    · exact h
    · refine Effects.perform_inv (fun f hf t t' ht hft => ?_) h
      obtain rfl := List.mem_singleton.1 hf
      exact ht.relocate hft
    · exact h
  | _ =>
    cases hdir : entry.reclaim_staging_dir with
    | none =>
      unfold BodyLog.recoverIntent
      rw [hst, hdir]
      exact h
    | some d => exact hintent (by simp [hst]) hdir

/-- **Recovery keeps every entry backed.** -/
theorem Backs.recover (h : Backs receipts s) : Backs receipts (recoverReclaimIntents env s).1 := by
  unfold recoverReclaimIntents
  split
  · exact h
  · rename_i entries hread
    refine Effects.sweep_inv (fun e he t ht => ht.recoverIntent fun hstate => ?_) h
    obtain ⟨-, rfl⟩ := mapM_checked_eq_ok_iff.1 hread
    obtain ⟨⟨sha, e'⟩, hmem, rfl⟩ := List.mem_map.1 he
    exact h.backed sha e' (OrdMap.mem_entries_iff.1 hmem) hstate

theorem reclaimCheck_eq_ok {item : ReclaimItem} {absent : Bool}
    (h : reclaimCheck env peers item proof s = .ok (entry, absent)) :
    env.locked item.segment_path = false ∧
      readCatalogEntry s.catalog item.segment_sha256 = .ok entry ∧ entry.isPlanned item = true ∧
      validateAcceptedCatalogReceiptAt s.receipts entry = .ok () ∧
      localPairAbsent env entry s = .ok absent ∧ absent = item.local_pair_absent ∧
      validateReclaimProof env.now [item] (proof.only item.segment_sha256) = .ok () ∧
      (absent = false → validateAllProjectionCustody env peers entry s = .ok () ∧
        reclaimStagingPaths env entry = .ok (stagingDirOf env entry)) := by
  unfold reclaimCheck at h
  split_ifs at h with hlock
  obtain ⟨entry', hread, h⟩ := bind_eq_ok_iff.1 h
  split_ifs at h with hplanned
  obtain ⟨_, hreceipt, h⟩ := bind_eq_ok_iff.1 h
  obtain ⟨absent', hpair, h⟩ := bind_eq_ok_iff.1 h
  split_ifs at h with habsent hgone
  all_goals
    obtain ⟨_, hproof, h⟩ := bind_eq_ok_iff.1 h
    obtain ⟨_, hcustody, h⟩ := bind_eq_ok_iff.1 h
    obtain ⟨dir, hdir, h⟩ := bind_eq_ok_iff.1 h
    obtain ⟨rfl, rfl⟩ := Prod.mk.inj (Except.ok.inj h)
  · exact ⟨by simpa using hlock, hread, by simpa using hplanned, hreceipt, hpair, not_not.1 habsent,
      hproof, fun hfalse => absurd hgone (by simp [hfalse])⟩
  · have hsame : dir = stagingDirOf env entry' := by
      unfold reclaimStagingPaths at hdir
      split_ifs at hdir
      exact (Except.ok.inj hdir).symm
    rw [hsame] at hdir
    exact ⟨by simpa using hlock, hread, by simpa using hplanned, hreceipt, hpair, not_not.1 habsent,
      hproof, fun _ => ⟨hcustody, hdir⟩⟩

/-- **A reclaim keeps every entry backed.** -/
theorem Backs.reclaimOne {item : ReclaimItem}
    (h : Backs receipts s) : Backs receipts (reclaimOne env peers proof item s).1 := by
  unfold BodyLog.reclaimOne
  split
  · exact h
  · rename_i entry hcheck
    have hentry := (reclaimCheck_eq_ok hcheck).2.2.2.1
    rw [h.receipts_eq] at hentry
    refine Effects.perform_inv (fun f hf t t' ht hft => ?_) h
    simp only [forgetEffects, List.mem_cons, List.not_mem_nil, or_false] at hf
    rcases hf with rfl | rfl
    · exact ht.same (sameBackups_retire hft)
    · exact ht.write hft fun _ => hentry
  · rename_i entry hcheck
    have hentry := (reclaimCheck_eq_ok hcheck).2.2.2.1
    rw [h.receipts_eq] at hentry
    have hintent : Backs receipts
        (Effects.perform s (intentEffects entry (stagingDirOf env entry))).1 := by
      refine Effects.perform_inv (fun f hf t t' ht hft => ?_) h
      simp only [intentEffects, List.mem_cons, List.not_mem_nil, or_false] at hf
      rcases hf with rfl | rfl | rfl | rfl
      · obtain rfl := Except.ok.inj hft
        exact ht.same ⟨rfl, rfl⟩
      · unfold refuseStaged at hft
        split_ifs at hft
        obtain rfl := Except.ok.inj hft
        exact ht
      · exact ht.same (sameBackups_check hft)
      · exact ht.write hft fun _ => hentry
    split
    · rename_i hperform
      rwa [hperform] at hintent
    · rename_i s₁ hperform
      rw [hperform] at hintent
      have hcommit : Backs receipts
          (Effects.perform s₁ (commitEffects entry (stagingDirOf env entry))).1 := by
        refine Effects.perform_inv (fun f hf t t' ht hft => ?_) hintent
        simp only [commitEffects, List.mem_cons, List.not_mem_nil, or_false] at hf
        rcases hf with rfl | rfl | rfl
        · exact ht.same (sameBackups_stageSegment hft)
        · exact ht.same (sameBackups_stageManifest hft)
        · exact ht.same (sameBackups_retire hft)
      split
      · rename_i hperform'
        rw [hperform'] at hcommit
        exact hcommit.cleanup hentry
      · rename_i hperform'
        rw [hperform'] at hcommit
        have hrec : Backs receipts (recoverReclaimIntents env _).1 := hcommit.recover
        split
        · rename_i hr
          rwa [hr] at hrec
        · rename_i hr
          rwa [hr] at hrec

theorem Backs.reclaimVerifiedSegments {options : ReclaimOptions} (h : Backs receipts s) :
    Backs receipts (reclaimVerifiedSegments env peers options proof s).1 := by
  have hplan : Backs receipts (reclaimPlan env options.keep_days s).1 := by
    have hrec : Backs receipts (recoverReclaimIntents env s).1 := h.recover
    unfold reclaimPlan
    split
    · rename_i hr
      rwa [hr] at hrec
    · rename_i hr
      rwa [hr] at hrec
  unfold BodyLog.reclaimVerifiedSegments
  split
  · rename_i hp
    rwa [hp] at hplan
  · rename_i hp
    rw [hp] at hplan
    split
    · exact hplan
    · split_ifs
      · exact Effects.sweep_inv (fun item _ t ht => ht.reclaimOne) hplan
      · exact hplan

theorem Backs.restoreRemoteSegment {sha : Sha} {segment : Bytes}
    {manifest : SegmentManifest} (h : Backs receipts s) :
    Backs receipts (restoreRemoteSegment env sha segment manifest s).1 := by
  have hintent : ∀ {entry : RemoteSegmentEntry} {t : Store}, Backs receipts t →
      Backs receipts (Effects.perform t (restoreIntent env entry)).1 := by
    intro entry t ht
    refine Effects.perform_inv (fun f hf t t' ht hft => ?_) ht
    simp only [restoreIntent, List.mem_cons, List.not_mem_nil, or_false] at hf
    rcases hf with rfl | rfl | rfl | rfl | rfl
    · exact ht.same (sameBackups_validateRestoreTarget hft)
    · split_ifs at hft
      obtain rfl := Except.ok.inj hft
      exact ht
    · exact ht.same (sameBackups_registerOwner hft)
    · exact ht.same (sameBackups_check hft)
    · exact ht.same (sameBackups_check hft)
  have hcommit : ∀ {entry : RemoteSegmentEntry} {t : Store}, Backs receipts t →
      Backs receipts (Effects.perform t (restoreCommit env entry segment manifest)).1 := by
    intro entry t ht
    refine Effects.perform_inv (fun f hf t t' ht hft => ?_) ht
    simp only [restoreCommit, List.mem_cons, List.not_mem_nil, or_false] at hf
    rcases hf with rfl | rfl | rfl | rfl
    · exact ht.same (sameBackups_importSegment hft)
    · exact ht.same (sameBackups_importManifest hft)
    · exact ht.same (sameBackups_restoreIndex hft)
    · exact ht.write hft fun hstate => absurd rfl hstate
  have hrec : Backs receipts (recoverReclaimIntents env s).1 := h.recover
  unfold BodyLog.restoreRemoteSegment
  split
  · rename_i hr
    rwa [hr] at hrec
  · rename_i hr
    rw [hr] at hrec
    split
    · exact hrec
    · rename_i entry _
      split
      · exact hrec
      split
      · exact hrec
      split
      · exact hrec
      · have hi : Backs receipts (Effects.perform _ (restoreIntent env entry)).1 := hintent hrec
        split
        · rename_i hp
          rwa [hp] at hi
        · rename_i hp
          rw [hp] at hi
          split
          · exact hi
          · exact hi
          · split_ifs
            · exact hi
            · exact hi
            · exact hcommit hi

end Operations

/-! ### Accepting a receipt -/

theorem sameBackups_verifySegmentRow {verified : List Sha} {row : SegmentRow}
    {found : Option (Path × Option SegmentManifest)}
    (h : verifySegmentRow env verified row s = .ok (s', found)) : SameBackups s s' := by
  unfold verifySegmentRow at h
  split at h
  · obtain ⟨rfl, -⟩ := Prod.mk.inj (Except.ok.inj h)
    exact .refl _
  · split at h
    · cases h
    · split_ifs at h
      obtain ⟨rfl, -⟩ := Prod.mk.inj (Except.ok.inj h)
      exact .refl _
    · split_ifs at h
      all_goals
        obtain ⟨rfl, -⟩ := Prod.mk.inj (Except.ok.inj h)
        exact ⟨rfl, rfl⟩

theorem sameBackups_verifiedSegmentProjection (env : Env) (verified : List Sha)
    (rows : List SegmentRow) (s : Store) :
    SameBackups s (verifiedSegmentProjection env verified rows s).1 := by
  induction rows generalizing s with
  | nil => exact .refl s
  | cons row rows ih =>
    rw [verifiedSegmentProjection]
    split
    · exact .refl s
    · rename_i hrow
      exact (sameBackups_verifySegmentRow hrow).trans (ih _)
    · rename_i s' found hrow
      have hrest := (sameBackups_verifySegmentRow hrow).trans (ih s')
      split
      · rename_i hr
        rwa [hr] at hrest
      · rename_i hr
        rwa [hr] at hrest

theorem sameBackups_backupPlan (env : Env) (s : Store) : SameBackups s (backupPlan env s).1 := by
  unfold backupPlan
  split
  · exact .refl s
  · rename_i verified latest _
    have hproj := sameBackups_verifiedSegmentProjection env verified
      (segmentProjectionRows s.index) s
    split
    · rename_i hp
      rwa [hp] at hproj
    · rename_i hp
      rwa [hp] at hproj

/-- If a receipt carries the generation that a plan would give out, a receipt file of that
generation already has its content. -/
def unclaimed (env : Env) (r : Receipt) (s : Store) : Bool :=
  match backupState env s with
  | .error _ => true
  | .ok state =>
    r.generation ≠ Word.satAdd state.2 1 ∨ (s.receipts.get r.generation).all fun old => old = r

theorem validateAccepted_insert {receipts : OrdMap ℕ Receipt} {r : Receipt}
    (hnew : ∀ old, receipts.get r.generation = some old → old = r) {e : RemoteSegmentEntry}
    (h : validateAcceptedCatalogReceiptAt receipts e = .ok ()) :
    validateAcceptedCatalogReceiptAt (receipts.insert r.generation r) e = .ok () := by
  unfold validateAcceptedCatalogReceiptAt at h ⊢
  rw [OrdMap.get_insert]
  split_ifs with hgen
  · rw [hgen] at h
    cases hget : receipts.get r.generation with
    | none =>
      rw [hget] at h
      cases h
    | some old =>
      rw [hget, hnew old hget] at h
      rw [hgen]
      exact h
  · exact h

/-- **An accepted receipt is added to the others**, or nothing changes. -/
theorem Backs.acceptBackupReceipt {receipts : OrdMap ℕ Receipt} {fails : Bool}
    {r : Receipt} (h : Backs receipts s) (hnew : unclaimed env r s = true) :
    Backs receipts (acceptBackupReceipt env fails r s).1 ∨
      ((∀ old, receipts.get r.generation = some old → old = r) ∧
        Backs (receipts.insert r.generation r) (acceptBackupReceipt env fails r s).1) := by
  unfold BodyLog.acceptBackupReceipt
  split
  · exact Or.inl h
  · have hplan := sameBackups_backupPlan env s
    split
    · rename_i hp
      rw [hp] at hplan
      exact Or.inl (h.same hplan)
    · rename_i s' plan hp
      rw [hp] at hplan
      split
      · exact Or.inl (h.same hplan)
      · rename_i hcheck
        -- the receipt has the planned generation
        have hfresh : ∀ old, receipts.get r.generation = some old → old = r := by
          unfold backupPlan at hp
          cases hstate : backupState env s with
          | error e => simp [hstate] at hp
          | ok state =>
            obtain ⟨verified, latest⟩ := state
            simp only [hstate] at hp
            split at hp
            · cases hp
            · obtain ⟨-, hplan'⟩ := Prod.mk.inj hp
              obtain ⟨items, -, rfl⟩ := map_eq_ok_iff.1 hplan'
              unfold checkAgainstPlan at hcheck
              split_ifs at hcheck with h1 h2 h3 h4
              intro old hold
              simp only [unclaimed, hstate, h.receipts_eq, hold, decide_eq_true_eq] at hnew
              rcases hnew with hne | hall
              · exact absurd (not_not.1 h3) hne
              · simpa using hall
        have hinv : Backs receipts (Effects.perform s' (acceptEffects env fails r plan)).1 ∨
            Backs (receipts.insert r.generation r)
              (Effects.perform s' (acceptEffects env fails r plan)).1 := by
          refine @Effects.perform_inv Store Error
            (fun t => Backs receipts t ∨ Backs (receipts.insert r.generation r) t) _
            (fun f hf t t' ht hft => ?_) s' (Or.inl (h.same hplan))
          simp only [acceptEffects, List.mem_append, List.mem_map, List.mem_cons, List.not_mem_nil,
            or_false] at hf
          rcases hf with (⟨item, -, rfl⟩ | rfl | rfl) | hf
          · unfold recordAccepted at hft
            split at hft
            · cases hft
            · rcases ht with ht | ht
              · exact Or.inl (ht.write hft fun hstate => absurd rfl hstate)
              · exact Or.inr (ht.write hft fun hstate => absurd rfl hstate)
          · obtain rfl := Except.ok.inj hft
            rcases ht with ht | ht
            · refine Or.inr ⟨?_, fun sha e he hstate => ?_⟩
              · show t.receipts.insert _ _ = _
                rw [ht.receipts_eq]
              · exact validateAccepted_insert hfresh (ht.backed sha e he hstate)
            · refine Or.inr ⟨?_, ht.backed⟩
              show t.receipts.insert _ _ = _
              rw [ht.receipts_eq]
              exact OrdMap.insert_eq_self (by simp)
          · obtain rfl := Except.ok.inj hft
            exact ht.imp (fun ht => ht.same ⟨rfl, rfl⟩) fun ht => ht.same ⟨rfl, rfl⟩
          · split_ifs at hf
            · obtain rfl := List.mem_singleton.1 hf
              unfold recordBackupProjection at hft
              split_ifs at hft
              obtain rfl := Except.ok.inj hft
              exact ht.imp (fun ht => ht.same ⟨rfl, rfl⟩) fun ht => ht.same ⟨rfl, rfl⟩
            · cases hf
        exact hinv.imp id fun hb => ⟨hfresh, hb⟩

/-! ### Runs -/

/-- What one logger does with its backups: it plans them, accepts receipts (the index may fail to
record one), reclaims and restores segments, and between that does anything else. -/
inductive Op
  | plan (env : Env)
  | accept (env : Env) (fails : Bool) (r : Receipt)
  | reclaim (env : Env) (peers : Peers) (options : ReclaimOptions) (proof : ReclaimProof)
  | restore (env : Env) (sha : Sha) (segment : Bytes) (manifest : SegmentManifest)
  | work (f : Store → Store)

/-- One operation. -/
def Op.step (s : Store) : Op → Store
  | .plan env => (backupPlan env s).1
  | .accept env fails r => (acceptBackupReceipt env fails r s).1
  | .reclaim env peers options proof => (reclaimVerifiedSegments env peers options proof s).1
  | .restore env sha segment manifest => (restoreRemoteSegment env sha segment manifest s).1
  | .work f => { f s with receipts := s.receipts, catalog := s.catalog }

/-- No receipt is accepted in the place of another. -/
def Op.unclaimed (s : Store) : Op → Bool
  | .accept env _ r => BodyLog.unclaimed env r s
  | _ => true

/-- No receipt file was replaced or lost. -/
def ReceiptsKept (s s' : Store) : Prop :=
  ∀ g r, s.receipts.get g = some r → s'.receipts.get g = some r

theorem Op.step_backed (h : Backed s) {op : Op} (hop : op.unclaimed s = true) :
    ReceiptsKept s (op.step s) ∧ Backed (op.step s) := by
  have hsame : Backs s.receipts (op.step s) → ReceiptsKept s (op.step s) ∧ Backed (op.step s) := by
    intro hb
    refine ⟨fun g r hr => ?_, hb.toBacked⟩
    rw [hb.receipts_eq]
    exact hr
  cases op with
  | plan env => exact hsame (h.backs.same (sameBackups_backupPlan env s))
  | accept env fails r =>
    rcases h.backs.acceptBackupReceipt hop with hb | ⟨hfresh, hb⟩
    · exact hsame hb
    · refine ⟨fun g old hold => ?_, hb.toBacked⟩
      show (acceptBackupReceipt env fails r s).1.receipts.get g = some old
      rw [hb.receipts_eq, OrdMap.get_insert]
      split_ifs with hg
      · rw [hg] at hold
        rw [hfresh old hold]
      · exact hold
  | reclaim env peers options proof => exact hsame h.backs.reclaimVerifiedSegments
  | restore env sha segment manifest => exact hsame h.backs.restoreRemoteSegment
  | work f => exact hsame ⟨rfl, h⟩

/-- **Accepted receipts stay.**  In every run in which no receipt is accepted in the place of
another, no receipt file changes and every entry that is remote only keeps the receipt that proves
its segment, its manifest and their remote paths. -/
theorem receipts_stay (ops : List Op) (s : Store) (h : Backed s)
    (hops : ∀ v ∈ Machine.visited Op.step s ops, v.2.unclaimed v.1 = true) :
    ∀ v ∈ Machine.visited Op.step s ops,
      ReceiptsKept v.1 (v.2.step v.1) ∧ Backed (v.2.step v.1) := by
  induction ops generalizing s with
  | nil => simp [Machine.visited]
  | cons op ops ih =>
    rw [Machine.visited, List.forall_mem_cons] at hops ⊢
    have hstep := Op.step_backed h hops.1
    exact ⟨hstep, ih _ hstep.2 hops.2⟩

/-- A store with one more sealed segment of a single record, for concrete runs. -/
def Store.withSealed (s : Store) (path : Path) (r : BodyRecord) (body : Bytes) : Store :=
  let bytes := segmentBytes .plain [⟨r, body⟩]
  let m := manifestOf .plain path bytes [⟨r, body⟩]
  { (s.putSegment path bytes).putManifest path m with
    custody := s.custody.insert path (.single true "state")
    index := (s.index.insertRecordOn r).1.upsertSegmentManifestProjectionOn path
      path.segmentStorage m none }

/-- A segment that is old enough to be reclaimed. -/
def oldPath : Path := .inArchive 0 "capture-1.sbcap"

/-- A segment of yesterday. -/
def newPath : Path := .inArchive (9 * dayMs) "capture-2.sbcap"

/-- The old segment, sealed. -/
def oneSealed : Store :=
  Store.empty.withSealed oldPath (sampleRecord "evt-1" 1000 [1] oldPath) [1]

/-- The next segment is captured and sealed. -/
def captureNew (s : Store) : Store :=
  s.withSealed newPath (sampleRecord "evt-2" (9 * dayMs + 1000) [2] newPath) [2]

/-- What a backup agent reports for one segment of a store, in the first generation. -/
def sampleReceipt (s : Store) (path : Path) : Receipt :=
  { schema := backupReceiptSchema
    generation := 1
    completed_at_unix_ms := 9 * dayMs + 2000
    verified_through_day := some path.day
    remote_root := "nas:/backup"
    segments := (s.manifests.get path).toList.map fun m =>
      ⟨m.segment_sha256, manifestSha .plain m, "segments/" ++ path.file,
        "segments/" ++ path.file ++ ".json", true⟩ }

/-- A fresh proof that the old segment is whole on the remote side. -/
def sampleProof : ReclaimProof :=
  { schema := reclaimProofSchema
    verified_at_unix_ms := 10 * dayMs
    segments := (sampleReceipt oneSealed oldPath).segments.map fun item =>
      ⟨item.segment_sha256, item.manifest_sha256, item.remote_path, item.remote_manifest_path,
        true⟩ }

/-- The old segment is backed up, which the index may fail to record, and reclaimed, and the next
segment is captured. -/
def backedUpAndReclaimed (fails : Bool) : List Op :=
  [.accept sampleEnv fails (sampleReceipt oneSealed oldPath),
    .reclaim sampleEnv (fun _ => none) ⟨1, true⟩ sampleProof,
    .work captureNew]

theorem receipts_stay_reclaimed :
    (∀ v ∈ Machine.visited Op.step oneSealed (backedUpAndReclaimed false),
        v.2.unclaimed v.1 = true) ∧
      ∀ v ∈ Machine.visited Op.step oneSealed (backedUpAndReclaimed false),
        ReceiptsKept v.1 (v.2.step v.1) ∧ Backed (v.2.step v.1) := by
  have hops : ∀ v ∈ Machine.visited Op.step oneSealed (backedUpAndReclaimed false),
      v.2.unclaimed v.1 = true := by
    intro v hv
    rcases List.mem_cons.1 hv with rfl | hv
    · decide +kernel
    -- only the acceptance of a receipt can claim a generation
    · rcases List.mem_cons.1 hv with rfl | hv
      · rfl
      · rw [List.mem_singleton.1 hv]
        rfl
  exact ⟨hops, receipts_stay _ _ (fun sha e he => by cases he) hops⟩

/-- The store after the receipt of the next segment. -/
def afterNextReceipt : Store :=
  Op.step ((backedUpAndReclaimed true).foldl Op.step oneSealed)
    (.accept sampleEnv false (sampleReceipt (captureNew oneSealed) newPath))

/-- Of the entries that are remote only, none lacks the receipt that proves it. -/
theorem Backed.not_lost {s : Store} (h : Backed s) :
    ¬ (s.catalog.entries.any fun p => decide (p.2.state = .remoteOnly) &&
        !(validateAcceptedCatalogReceiptAt s.receipts p.2).toBool) = true := by
  intro hlost
  obtain ⟨⟨sha, e⟩, hmem, hbad⟩ := List.any_eq_true.1 hlost
  rw [Bool.and_eq_true, decide_eq_true_eq] at hbad
  have hok := h sha e (OrdMap.mem_entries_iff.1 hmem) (by rw [hbad.1]; simp)
  simp [hok, Except.toBool] at hbad

/-- After a failed record the next receipt has the same generation: it takes the place of the one
that proves the reclaimed segment, which then cannot be restored. -/
theorem reclaimed_receipt_replaced :
    ¬ ∀ (ops : List Op) (s : Store), Backed s → ∀ v ∈ Machine.visited Op.step s ops,
      ReceiptsKept v.1 (v.2.step v.1) ∧ Backed (v.2.step v.1) := by
  intro h
  have hbacked : Backed afterNextReceipt :=
    (h (backedUpAndReclaimed true ++
      [.accept sampleEnv false (sampleReceipt (captureNew oneSealed) newPath)])
      oneSealed (fun sha e he => by cases he) ((backedUpAndReclaimed true).foldl Op.step oneSealed,
        .accept sampleEnv false (sampleReceipt (captureNew oneSealed) newPath))
      (by rw [Machine.visited_append]; simp [Machine.visited])).2
  exact hbacked.not_lost (by decide +kernel)

end BodyLog

end Switchback
