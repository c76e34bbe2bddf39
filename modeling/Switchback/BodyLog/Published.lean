import Switchback.BodyLog.Pressure

/-!
# What capture pressure publishes

Others read the state file, and the watermark that a degraded capture has to clear.
-/

namespace Switchback

namespace BodyLog

namespace Pressure

open Lib

/-! ### The state file -/

/-- The state on disk agrees with the status of the controller, but for unbacked bytes that have
moved little since a snapshot that is young. -/
structure Published (disk : PersistedPressureState) (status : PressureStatus) (now : ℤ) :
    Prop where
  mode : disk.mode = status.mode
  reasons : disk.reasons = status.reasons
  resume_blockers : disk.resume_blockers = status.resume_blockers
  healthy_backup_cycles : disk.healthy_backup_cycles = status.healthy_backup_cycles
  last_backup_generation : disk.last_backup_generation = status.last_backup_generation
  writer_failures : disk.writer_failures = status.writer_failures
  queue_drops : disk.queue_drops = status.queue_drops
  unbacked_bytes : disk.unbacked_bytes = status.unbacked_bytes ∨
    (disk.unbacked_bytes < status.unbacked_bytes + unbackedSnapshotBytes ∧
      status.unbacked_bytes < disk.unbacked_bytes + unbackedSnapshotBytes ∧
      now - disk.updated_at_unix_ms < unbackedSnapshotIntervalMs)

theorem persistedChanged_eq_false_iff {before after : PersistedPressureState} :
    persistedChanged before after = false ↔
      before.mode = after.mode ∧ before.reasons = after.reasons ∧
        before.resume_blockers = after.resume_blockers ∧
        before.healthy_backup_cycles = after.healthy_backup_cycles ∧
        before.last_backup_generation = after.last_backup_generation ∧
        before.writer_failures = after.writer_failures ∧
        before.queue_drops = after.queue_drops := by
  simp only [persistedChanged, decide_eq_false_iff_not, not_or, not_not, ne_eq]

/-- A snapshot is not due when the bytes have not moved, or have moved little since a young one. -/
theorem of_snapshotDue_eq_false {before after : PersistedPressureState} {now : ℤ}
    (h : snapshotDue before after now = false) :
    before.unbacked_bytes = after.unbacked_bytes ∨
      (before.unbacked_bytes < after.unbacked_bytes + unbackedSnapshotBytes ∧
        after.unbacked_bytes < before.unbacked_bytes + unbackedSnapshotBytes ∧
        now - before.updated_at_unix_ms < unbackedSnapshotIntervalMs) := by
  have hnot := of_decide_eq_false h
  rw [not_and, not_or, ge_iff_le, ge_iff_le, not_le, not_le] at hnot
  by_cases hsame : before.unbacked_bytes = after.unbacked_bytes
  · exact Or.inl hsame
  · obtain ⟨hdrift, hage⟩ := hnot (by omega)
    simp only [Word.satSubI64, unbackedSnapshotIntervalMs, Word.i64Min, Word.i64Max] at hage ⊢
    exact Or.inr ⟨by omega, by omega, by omega⟩

/-- **One evaluation.**  What it leaves on disk is the state of the controller, or close to it. -/
theorem evaluate_published (file : StateFile) (obs : PressureObservation) (now : ℤ) :
    ∃ status, (evaluate file none obs now).2 = some status ∧
      status = evaluatedStatus (nextState (readPersistedState file) obs now) obs now ∧
      Published (readPersistedState (evaluate file none obs now).1) status now := by
  refine ⟨evaluatedStatus (nextState (readPersistedState file) obs now) obs now, ?_, rfl, ?_⟩
  · simp only [evaluate, reduceCtorEq, if_false]
    split_ifs <;> rfl
  · simp only [evaluate, reduceCtorEq, if_false]
    split_ifs with hwrite
    · -- the state is written
      exact ⟨rfl, rfl, rfl, rfl, rfl, rfl, rfl, Or.inl rfl⟩
    · -- the file stays
      rw [not_or, Bool.not_eq_true, Bool.not_eq_true] at hwrite
      obtain ⟨hmode, hreasons, hblockers, hcycles, hgeneration, hfailures, hdrops⟩ :=
        persistedChanged_eq_false_iff.1 hwrite.1
      exact ⟨hmode, hreasons, hblockers, hcycles, hgeneration, hfailures, hdrops,
        of_snapshotDue_eq_false hwrite.2⟩

theorem evaluate_file (file : StateFile) (obs : PressureObservation) (now : ℤ) :
    (evaluate file none obs now).1 = .missing ∨
      ∃ st, (evaluate file none obs now).1 = .state st := by
  have hreasons (st : PersistedPressureState) (hmode : st.mode = .metadataOnly) :
      (judge st obs now).reasons ≠ ["pressure_state_invalid"] ∧
        (judge st obs now).reasons ≠ ["pressure_state_unreadable"] := by
    simp only [judge, hmode, true_or, if_true]
    by_cases hsevere : severe st obs now ≠ []
    · rw [if_pos hsevere]
      simp only [severe]
      split_ifs <;> simp
    · rw [if_neg hsevere]
      by_cases hnever : neverBackedUp obs = true
      · rw [if_pos hnever]
        simp
      · rw [if_neg hnever, heal]
        split_ifs <;> simp
  have hwrites (st : PersistedPressureState)
      (h : st.reasons ≠ (nextState st obs now).reasons) :
      persistedChanged st (nextState st obs now) = true := by
    rw [persistedChanged, decide_eq_true_eq]
    exact Or.inr (Or.inl h)
  simp only [evaluate, reduceCtorEq, if_false]
  split_ifs with hwrite
  · exact Or.inr ⟨_, rfl⟩
  · cases file with
    | missing => exact Or.inl rfl
    | state st => exact Or.inr ⟨st, rfl⟩
    | invalid =>
      exact absurd (Or.inl (hwrites _ (hreasons (readPersistedState .invalid) rfl).1.symm)) hwrite
    | unreadable =>
      exact absurd (Or.inl (hwrites _ (hreasons (readPersistedState .unreadable) rfl).2.symm))
        hwrite

/-- The state file after one evaluation. -/
def evaluated (file : StateFile) (call : PressureObservation × ℤ) : StateFile :=
  (evaluate file none call.1 call.2).1

/-- **The published state cannot freeze.**  In every run of evaluations, from any file, each of them
leaves a state on disk that is behind the status of the controller by a little at most, and a
damaged file is written over by the first. -/
theorem published_cannot_freeze (file : StateFile) (calls : List (PressureObservation × ℤ)) :
    ∀ v ∈ Machine.visited evaluated file calls,
      (∃ status, (evaluate v.1 none v.2.1 v.2.2).2 = some status ∧
        status.unbacked_bytes = v.2.1.unbacked_bytes ∧
        Published (readPersistedState (evaluated v.1 v.2)) status v.2.2) ∧
      (evaluated v.1 v.2 = .missing ∨ ∃ st, evaluated v.1 v.2 = .state st) := by
  intro v _
  obtain ⟨status, hstatus, heq, hpublished⟩ := evaluate_published v.1 v.2.1 v.2.2
  exact ⟨⟨status, hstatus, by rw [heq]; rfl, hpublished⟩, evaluate_file v.1 v.2.1 v.2.2⟩

/-- One evaluation of a damaged file. -/
theorem published_cannot_freeze_damaged :
    (∃ status, (evaluate .invalid none freshReceipt 2000).2 = some status ∧
      status.unbacked_bytes = freshReceipt.unbacked_bytes ∧
      Published (readPersistedState (evaluated .invalid (freshReceipt, 2000))) status 2000) ∧
    (evaluated .invalid (freshReceipt, 2000) = .missing ∨
      ∃ st, evaluated .invalid (freshReceipt, 2000) = .state st) :=
  published_cannot_freeze .invalid [(freshReceipt, 2000)] (.invalid, freshReceipt, 2000)
    List.mem_cons_self

/-! ### The watermark -/

/-- The observation of a disk with so many free bytes. -/
def PressureObservation.disk (obs : PressureObservation) (free capacity : ℕ) :
    PressureObservation :=
  { obs with free_bytes := free, capacity_bytes := capacity }

theorem free_mem_severe_iff {st : PersistedPressureState} {obs : PressureObservation} {now : ℤ} :
    "free_bytes" ∈ severe st obs now ↔
      obs.free_bytes < freeDegradeBytes ∨
        ratioBps obs.free_bytes obs.capacity_bytes < freeDegradeBps := by
  have hother (p : Prop) [Decidable p] (reason : String) (h : "free_bytes" ≠ reason) :
      "free_bytes" ∉ (if p then [reason] else []) := by
    split_ifs
    · simpa using h
    · exact List.not_mem_nil
  rw [severe, List.mem_append, List.mem_append]
  constructor
  · rintro ((hmem | hmem) | hmem)
    · exact absurd hmem (hother _ _ (by decide))
    · by_contra hfree
      rw [if_neg hfree] at hmem
      cases hmem
    · exact absurd hmem (hother _ _ (by decide))
  · intro hfree
    rw [if_pos hfree]
    exact Or.inl (Or.inr List.mem_cons_self)

theorem ratioBps_lt_iff {free capacity : ℕ} (h : 0 < capacity) :
    ratioBps free capacity < freeDegradeBps ↔
      min (free * 10000) Word.u64Max < freeDegradeBps * capacity := by
  rw [ratioBps, if_neg (by omega), Nat.div_lt_iff_lt_mul h]

/-- **Which disks clear the floor.**  Free space from the resume watermark on never degrades capture
exactly when the capacity is from a third of a terabyte to one and a quarter. -/
theorem clears_floor_iff (capacity : ℕ) (st : PersistedPressureState) (obs : PressureObservation)
    (now : ℤ) :
    (∀ free, resumeFreeThresholdBytes capacity ≤ free →
      "free_bytes" ∉ severe st (obs.disk free capacity) now) ↔
      333333333334 ≤ capacity ∧ capacity ≤ 1250000000000 := by
  constructor
  · intro h
    have hfloor := h _ le_rfl
    rw [free_mem_severe_iff, not_or, not_lt, not_lt] at hfloor
    obtain ⟨hbytes, hratio⟩ := hfloor
    dsimp only [PressureObservation.disk] at hbytes hratio
    simp only [freeDegradeBytes, resumeFreeThresholdBytes, freeWarnBytes, freeWarnBps,
      Word.u64Max] at hbytes
    have hlow : 333333333334 ≤ capacity := by omega
    have hpos : 0 < capacity := by omega
    have hshare := (not_congr (ratioBps_lt_iff hpos)).1 (not_lt.2 hratio)
    simp only [resumeFreeThresholdBytes, freeWarnBytes, freeWarnBps, freeDegradeBps,
      Word.u64Max] at hshare
    exact ⟨hlow, by omega⟩
  · rintro ⟨hlow, hhigh⟩ free hfree
    simp only [resumeFreeThresholdBytes, freeWarnBytes, freeWarnBps, Word.u64Max] at hfree
    rw [free_mem_severe_iff]
    simp only [PressureObservation.disk]
    rw [ratioBps_lt_iff (by omega)]
    simp only [freeDegradeBytes, freeDegradeBps, Word.u64Max]
    omega

/-- A disk of a hundred gigabytes with fifteen of them free has reached the watermark, and is
degraded. -/
theorem small_disk_stays_degraded :
    ¬ ∀ (capacity free : ℕ) (st : PersistedPressureState) (obs : PressureObservation) (now : ℤ),
      resumeFreeThresholdBytes capacity ≤ free →
        "free_bytes" ∉ severe st (obs.disk free capacity) now := by
  intro h
  refine h 100000000000 15000000000 .default ⟨0, 0, none, 0, 0⟩ 0 (by decide) ?_
  rw [free_mem_severe_iff]
  exact Or.inl (by decide)

end Pressure

end BodyLog

end Switchback
