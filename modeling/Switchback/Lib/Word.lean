import Mathlib.Algebra.BigOperators.Group.List.Basic
import Mathlib.Algebra.Order.Ring.Int

/-!
# Machine words

Sixty-four bit words as `ℕ` and `ℤ`: saturating addition, the wrapping casts between the signed
and the unsigned type, and a running sum that fails on the first signed overflow.
-/

namespace Lib

namespace Word

/-- The greatest unsigned word. -/
def u64Max : ℕ := 2 ^ 64 - 1

/-- The greatest signed word. -/
def i64Max : ℤ := 2 ^ 63 - 1

/-- The least signed word. -/
def i64Min : ℤ := -2 ^ 63

/-- Saturating addition. -/
def satAdd (a b : ℕ) : ℕ := min (a + b) u64Max

/-- Saturating addition of signed words. -/
def satAddI64 (a b : ℤ) : ℤ := max i64Min (min (a + b) i64Max)

/-- Saturating subtraction of signed words. -/
def satSubI64 (a b : ℤ) : ℤ := max i64Min (min (a - b) i64Max)

/-- Saturating multiplication of signed words. -/
def satMulI64 (a b : ℤ) : ℤ := max i64Min (min (a * b) i64Max)

/-- Addition of thirty-two bit words, `none` on overflow. -/
def checkedAddU32 (a b : ℕ) : Option ℕ := if a + b < 2 ^ 32 then some (a + b) else none

/-- The wrapping cast to the signed type. -/
def toI64 (n : ℕ) : ℤ :=
  if n % 2 ^ 64 < 2 ^ 63 then ((n % 2 ^ 64 : ℕ) : ℤ) else ((n % 2 ^ 64 : ℕ) : ℤ) - 2 ^ 64

/-- The wrapping cast to the unsigned type. -/
def toU64 (z : ℤ) : ℕ := (z % 2 ^ 64).toNat

/-- Wrapping subtraction of signed words. -/
def wrapSubI64 (a b : ℤ) : ℤ := toI64 (toU64 (a - b))

/-- Signed addition, `none` on overflow. -/
def checkedAdd (a b : ℤ) : Option ℤ :=
  if i64Min ≤ a + b ∧ a + b ≤ i64Max then some (a + b) else none

/-- The running sum, `none` as soon as it leaves the signed range. -/
def checkedSum (l : List ℤ) : Option ℤ := l.foldlM checkedAdd 0

theorem satAdd_le (a b : ℕ) : satAdd a b ≤ u64Max := Nat.min_le_right _ _

theorem foldl_satAdd {a : ℕ} (ha : a ≤ u64Max) (l : List ℕ) :
    l.foldl satAdd a = min (a + l.sum) u64Max := by
  induction l generalizing a with
  | nil => simp [ha]
  | cons b l ih =>
    rw [List.foldl_cons, ih (satAdd_le a b), List.sum_cons]
    simp only [satAdd]
    omega

theorem foldl_satAdd_eq_iff {a : ℕ} (ha : a ≤ u64Max) (l : List ℕ) :
    l.foldl satAdd a = a ↔ a = u64Max ∨ ∀ b ∈ l, b = 0 := by
  rw [foldl_satAdd ha, ← List.sum_eq_zero_iff_forall_eq_nat]
  omega

theorem toU64_le (z : ℤ) : toU64 z ≤ u64Max := by
  simp only [toU64, u64Max]
  omega

theorem toI64_of_lt {n : ℕ} (h : n < 2 ^ 63) : toI64 n = n := by
  have hn : n % 2 ^ 64 = n := Nat.mod_eq_of_lt (by omega)
  rw [toI64, hn, if_pos h]

theorem wrapSubI64_zero {n : ℕ} (_ : n < 2 ^ 64) : wrapSubI64 (toI64 n) 0 = toI64 n := by
  simp only [wrapSubI64, toI64, toU64]
  split_ifs <;> omega

theorem wrapSubI64_toI64_eq_zero_iff {m n : ℕ} (hm : m < 2 ^ 64) (hn : n < 2 ^ 64) :
    wrapSubI64 (toI64 m) (toI64 n) = 0 ↔ m = n := by
  simp only [wrapSubI64, toI64, toU64]
  split_ifs <;> omega

theorem toU64_natCast {n : ℕ} (h : n < 2 ^ 64) : toU64 n = n := by
  simp only [toU64]
  omega

theorem foldlM_checkedAdd_eq_some {l : List ℤ} {a z : ℤ} (ha : i64Min ≤ a ∧ a ≤ i64Max)
    (h : l.foldlM checkedAdd a = some z) : z = a + l.sum ∧ i64Min ≤ z ∧ z ≤ i64Max := by
  induction l generalizing a with
  | nil =>
    obtain rfl : a = z := by simpa using h
    simpa using ha
  | cons b l ih =>
    rw [List.foldlM_cons] at h
    by_cases hab : i64Min ≤ a + b ∧ a + b ≤ i64Max
    · rw [show checkedAdd a b = some (a + b) from if_pos hab] at h
      obtain ⟨hz, hr⟩ := ih hab h
      exact ⟨by rw [hz, List.sum_cons, add_assoc], hr⟩
    · rw [show checkedAdd a b = none from if_neg hab] at h
      simp at h

theorem checkedSum_eq_some {l : List ℤ} {z : ℤ} (h : checkedSum l = some z) :
    z = l.sum ∧ i64Min ≤ z ∧ z ≤ i64Max := by
  simpa using foldlM_checkedAdd_eq_some (by simp [i64Min, i64Max]) h

theorem toU64_eq_u64Max_iff {z : ℤ} (h : i64Min ≤ z ∧ z ≤ i64Max) :
    toU64 z = u64Max ↔ z = -1 := by
  simp only [toU64, u64Max, i64Min, i64Max] at *
  omega

end Word

end Lib
