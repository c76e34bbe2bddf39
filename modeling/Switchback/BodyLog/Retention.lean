import Switchback.BodyLog.Gc

/-!
# The retention cutoff

An operator says how many days to keep, in an unsigned word; the cutoff is computed in signed
milliseconds.
-/

namespace Switchback

namespace BodyLog

open Lib

/-- A number of the signed type. -/
def InI64 (z : ℤ) : Prop := Word.i64Min ≤ z ∧ z ≤ Word.i64Max

/-- No step of `retention_cutoff_ms` overflows. -/
structure CutoffExact (now : ℤ) (keep_days : ℕ) : Prop where
  floor : InI64 (dayFloorMs now)
  span : InI64 (Word.toI64 keep_days * dayMs)
  cutoff : InI64 (dayFloorMs now - Word.toI64 keep_days * dayMs)

theorem wrapI64_of_inI64 {z : ℤ} (h : InI64 z) : wrapI64 z = z := by
  simp only [InI64, Word.i64Min, Word.i64Max] at h
  simp only [wrapI64, Word.toI64, Word.toU64]
  split_ifs <;> omega

theorem CutoffExact.eq {now : ℤ} {keep_days : ℕ} (h : CutoffExact now keep_days) :
    retentionCutoffMs now keep_days = dayFloorMs now - Word.toI64 keep_days * dayMs := by
  rw [retentionCutoffMs, wrapI64_of_inI64 h.span, wrapI64_of_inI64 h.cutoff]

/-- A span that the signed type holds is cast to itself. -/
theorem toI64_of_span {keep_days : ℕ} (h : (keep_days : ℤ) * dayMs ≤ Word.i64Max) :
    Word.toI64 keep_days = keep_days := by
  apply Word.toI64_of_lt
  simp only [dayMs, Word.i64Max] at h
  omega

theorem toI64_neg {keep_days : ℕ} (hword : keep_days < 2 ^ 64) (h : 2 ^ 63 ≤ keep_days) :
    Word.toI64 keep_days < 0 := by
  simp only [Word.toI64]
  split_ifs <;> omega

theorem keeps_more {s : Store} {cutoff cutoff' d : ℤ} (h : cutoff' ≤ cutoff)
    (hd : d ∈ collectCandidateDays s cutoff') : d ∈ collectCandidateDays s cutoff := by
  rw [mem_collectCandidateDays] at hd ⊢
  obtain ⟨hevent, hfloor, hlt, hdir⟩ := hd
  exact ⟨hevent, hfloor, lt_of_lt_of_le hlt h, hdir⟩

/-- The cutoff of `keep_days'` is no later than that of fewer days, which is no later than today,
nothing overflows, and no more days are candidates. -/
structure RetentionMonotone (now : ℤ) (keep_days keep_days' : ℕ) : Prop where
  exact : CutoffExact now keep_days
  exact' : CutoffExact now keep_days'
  antitone : retentionCutoffMs now keep_days' ≤ retentionCutoffMs now keep_days
  past : retentionCutoffMs now keep_days ≤ dayFloorMs now
  candidates : ∀ s d, d ∈ collectCandidateDays s (retentionCutoffMs now keep_days') →
    d ∈ collectCandidateDays s (retentionCutoffMs now keep_days)

/-- **When more days to keep mean an earlier cutoff.**  Exactly when the larger span and the cutoff
that it gives are in the signed range. -/
theorem retention_monotone_iff {now : ℤ} (hnow : InI64 now) {keep_days keep_days' : ℕ}
    (hword : keep_days' < 2 ^ 64) (hle : keep_days ≤ keep_days') :
    RetentionMonotone now keep_days keep_days' ↔
      (keep_days' : ℤ) * dayMs ≤ Word.i64Max ∧
        Word.i64Min ≤ dayFloorMs now - keep_days' * dayMs := by
  constructor
  · intro h
    have hsmall : keep_days' < 2 ^ 63 := by
      by_contra hlarge
      -- the cast turns the span around, and the cutoff is in the future
      have hneg := toI64_neg hword (not_lt.1 hlarge)
      have hfuture := h.antitone.trans h.past
      rw [h.exact'.eq] at hfuture
      unfold dayMs at hfuture
      omega
    have hspan := h.exact'.span.2
    have hcutoff := h.exact'.cutoff.1
    rw [Word.toI64_of_lt hsmall] at hspan hcutoff
    exact ⟨hspan, hcutoff⟩
  · rintro ⟨hspan, hcutoff⟩
    have hfloor := dayFloorMs_le now
    have hspan' : (keep_days : ℤ) * dayMs ≤ keep_days' * dayMs := by
      unfold dayMs
      omega
    have hpos : 0 ≤ (keep_days : ℤ) * dayMs := by
      unfold dayMs
      omega
    simp only [InI64] at hnow
    have hmin : Word.i64Min ≤ 0 := by decide
    have hexact' : CutoffExact now keep_days' := by
      refine ⟨⟨?_, ?_⟩, ?_, ?_⟩
      · omega
      · omega
      · rw [toI64_of_span hspan]
        exact ⟨by omega, hspan⟩
      · rw [toI64_of_span hspan]
        exact ⟨hcutoff, by omega⟩
    have hexact : CutoffExact now keep_days := by
      refine ⟨hexact'.floor, ?_, ?_⟩
      · rw [toI64_of_span (hspan'.trans hspan)]
        exact ⟨by omega, by omega⟩
      · rw [toI64_of_span (hspan'.trans hspan)]
        exact ⟨by omega, by omega⟩
    have hanti : retentionCutoffMs now keep_days' ≤ retentionCutoffMs now keep_days := by
      rw [hexact.eq, hexact'.eq, toI64_of_span hspan, toI64_of_span (hspan'.trans hspan)]
      omega
    refine ⟨hexact, hexact', hanti, ?_, fun s d hd => keeps_more hanti hd⟩
    rw [hexact.eq, toI64_of_span (hspan'.trans hspan)]
    omega

/-- A month and a year, on a day of 2026. -/
theorem retention_monotone_year :
    (InI64 1790000000000 ∧ 365 < 2 ^ 64 ∧ 30 ≤ 365) ∧
      (RetentionMonotone 1790000000000 30 365 ↔
        ((365 : ℕ) : ℤ) * dayMs ≤ Word.i64Max ∧
          Word.i64Min ≤ dayFloorMs 1790000000000 - ((365 : ℕ) : ℤ) * dayMs) := by
  have hnow : InI64 1790000000000 := ⟨by decide, by decide⟩
  exact ⟨⟨hnow, by decide, by decide⟩, retention_monotone_iff hnow (by decide) (by decide)⟩

/-- To keep as many days as a word can say is to keep less than today. -/
theorem keep_forever_deletes_today :
    ¬ ∀ (now : ℤ) (keep_days keep_days' : ℕ), InI64 now → keep_days' < 2 ^ 64 →
      keep_days ≤ keep_days' → RetentionMonotone now keep_days keep_days' := by
  intro h
  have hmono := h 1790000000000 30 (2 ^ 64 - 1) ⟨by decide, by decide⟩ (by decide) (by decide)
  exact absurd hmono.antitone (by decide)

end BodyLog

end Switchback
