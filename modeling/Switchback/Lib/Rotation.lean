import Mathlib.Data.Nat.Periodic
import Mathlib.Order.Interval.Finset.Nat

/-!
# Rotations

Places `0, …, n - 1` in a circle, and turns that are taken in order, `s` at a time.
-/

namespace Lib

namespace Rotation

variable {n s : ℕ}

/-- How far `i` is ahead of `c`. -/
def ahead (n c i : ℕ) : ℕ := (i + n - c % n) % n

theorem ahead_lt (hn : 0 < n) (c i : ℕ) : ahead n c i < n := Nat.mod_lt _ hn

theorem add_ahead {c i : ℕ} (hi : i < n) : (c % n + ahead n c i) % n = i := by
  have hc : c % n < n := Nat.mod_lt _ (Nat.zero_lt_of_lt hi)
  unfold ahead
  rw [Nat.add_mod_mod]
  have hsum : c % n + (i + n - c % n) = i + n := by omega
  rw [hsum, Nat.add_mod_right, Nat.mod_eq_of_lt hi]

theorem ahead_add {c off : ℕ} (hoff : off < n) : ahead n c ((c % n + off) % n) = off := by
  have hc : c % n < n := Nat.mod_lt _ (Nat.zero_lt_of_lt hoff)
  unfold ahead
  rcases Nat.lt_or_ge (c % n + off) n with hlt | hge
  · have hsum : c % n + off + n - c % n = off + n := by omega
    rw [Nat.mod_eq_of_lt hlt, hsum, Nat.add_mod_right, Nat.mod_eq_of_lt hoff]
  · have hmod : (c % n + off) % n = c % n + off - n := by
      rw [Nat.mod_eq_sub_mod hge, Nat.mod_eq_of_lt (by omega)]
    have hsum : c % n + off - n + n - c % n = off := by omega
    rw [hmod, hsum, Nat.mod_eq_of_lt hoff]

theorem ahead_succ {c i : ℕ} (hc : c < n) (hi : i < n) (hne : i ≠ c) :
    ahead n (c + 1) i + 1 = ahead n c i := by
  unfold ahead
  rw [Nat.mod_eq_of_lt hc]
  rcases Nat.lt_or_ge (c + 1) n with hlt | hge
  · rw [Nat.mod_eq_of_lt hlt]
    rcases Nat.lt_or_ge i c with hic | hic
    · rw [Nat.mod_eq_of_lt (by omega), Nat.mod_eq_of_lt (by omega)]
      omega
    · have h1 : i + n - (c + 1) = i - (c + 1) + n := by omega
      have h2 : i + n - c = i - c + n := by omega
      rw [h1, h2, Nat.add_mod_right, Nat.add_mod_right, Nat.mod_eq_of_lt (by omega),
        Nat.mod_eq_of_lt (by omega)]
      omega
  · have hn : c + 1 = n := by omega
    rw [hn, Nat.mod_self, Nat.sub_zero, Nat.add_mod_right, Nat.mod_eq_of_lt hi,
      Nat.mod_eq_of_lt (by omega)]
    omega

theorem ahead_eq {c i : ℕ} (hi : i < n) :
    ahead n c i = if c % n ≤ i then i - c % n else i + n - c % n := by
  have hc : c % n < n := Nat.mod_lt _ (by omega)
  unfold ahead
  split_ifs with h
  · have hsum : i + n - c % n = i - c % n + n := by omega
    rw [hsum, Nat.add_mod_right, Nat.mod_eq_of_lt (by omega)]
  · rw [Nat.mod_eq_of_lt (by omega)]

theorem ahead_trans {c i a : ℕ} (hi : i < n) (ha : a < n) (hne : i ≠ a)
    (hle : ahead n c i ≤ ahead n c a) : ahead n c i + 1 + ahead n (i + 1) a = ahead n c a := by
  have hc : c % n < n := Nat.mod_lt _ (by omega)
  have hnext : (i + 1) % n = if i + 1 = n then 0 else i + 1 := by
    split_ifs with h
    · rw [h, Nat.mod_self]
    · rw [Nat.mod_eq_of_lt (by omega)]
  rw [ahead_eq hi, ahead_eq ha] at hle
  rw [ahead_eq hi, ahead_eq ha, ahead_eq ha, hnext]
  split_ifs at * <;> omega

/-! ### Searching from a start -/

/-- How far the first place from `start` on is that satisfies `p`. -/
def firstFrom (n start : ℕ) (p : ℕ → Bool) : Option ℕ :=
  (List.range n).find? fun off => p ((start + off) % n)

theorem firstFrom_spec {start off : ℕ} {p : ℕ → Bool} (h : firstFrom n start p = some off) :
    off < n ∧ p ((start + off) % n) = true :=
  ⟨List.mem_range.1 (List.mem_of_find?_eq_some h),
    List.find?_some (p := fun off => p ((start + off) % n)) h⟩

theorem firstFrom_le {c off i : ℕ} {p : ℕ → Bool} (h : firstFrom n (c % n) p = some off)
    (hi : i < n) (hp : p i = true) : off ≤ ahead n c i := by
  by_contra hlt
  have hbefore := (List.find?_range_eq_some.1 h).2.2 (ahead n c i) (by omega)
  rw [add_ahead hi, hp] at hbefore
  cases hbefore

theorem exists_firstFrom {start i : ℕ} {p : ℕ → Bool} (hi : i < n) (hp : p i = true) :
    ∃ off, firstFrom n start p = some off := by
  rw [← Option.isSome_iff_exists, firstFrom, List.find?_isSome]
  refine ⟨ahead n start i, List.mem_range.2 (ahead_lt (Nat.zero_lt_of_lt hi) _ _), ?_⟩
  have hadd := add_ahead (c := start) hi
  rw [Nat.mod_add_mod] at hadd
  rw [hadd, hp]

/-! ### Taking turns -/

/-- Who takes turn `k` when everyone takes `s` in a row. -/
def turn (n s k : ℕ) : ℕ := k / s % n

theorem turn_lt (hn : 0 < n) (s k : ℕ) : turn n s k < n := Nat.mod_lt _ hn

theorem turn_succ (n s k : ℕ) :
    turn n s (k + 1) = if s ∣ k + 1 then (turn n s k + 1) % n else turn n s k := by
  unfold turn
  rw [Nat.succ_div]
  split_ifs
  · rw [Nat.mod_add_mod]
  · rw [Nat.add_zero]

theorem dvd_succ_iff (hs : 0 < s) (k : ℕ) : s ∣ k + 1 ↔ k % s + 1 = s := by
  have hlt := Nat.mod_lt k hs
  rw [Nat.dvd_iff_mod_eq_zero]
  constructor
  · intro h
    by_contra hne
    rw [Nat.add_mod, Nat.mod_eq_of_lt (a := k % s + 1 % s)] at h
    · have hone : 1 % s = 1 := Nat.mod_eq_of_lt (by omega)
      omega
    · have hone : 1 % s ≤ 1 := Nat.mod_le _ _
      omega
  · intro h
    rw [← Nat.mod_add_mod, h, Nat.mod_self]

theorem turn_periodic (n s : ℕ) (hs : 0 < s) : Function.Periodic (turn n s) (n * s) := by
  intro k
  unfold turn
  rw [Nat.add_mul_div_right _ _ hs, Nat.add_mod_right]

/-- **In any window of `n * s` turns everyone takes `s`.** -/
theorem card_turn (hs : 0 < s) (w : ℕ) {i : ℕ} (hi : i < n) :
    ((Finset.Ico w (w + n * s)).filter fun k => turn n s k = i).card = s := by
  have hperiodic : Function.Periodic (fun k => turn n s k = i) (n * s) := fun k => by
    dsimp only
    rw [turn_periodic n s hs k]
  rw [Nat.filter_Ico_card_eq_of_periodic w (n * s) _ hperiodic, Nat.count_eq_card_filter_range]
  have hrun : (Finset.range (n * s)).filter (fun k => turn n s k = i) =
      Finset.Ico (i * s) (i * s + s) := by
    ext k
    rw [Finset.mem_filter, Finset.mem_range, Finset.mem_Ico]
    have hdiv : k / s = i ↔ i * s ≤ k ∧ k < i * s + s := by
      rw [Nat.div_eq_iff hs]
      omega
    have hbound : i * s + s ≤ n * s := by
      rw [← Nat.succ_mul]
      exact Nat.mul_le_mul_right s hi
    rw [← hdiv]
    unfold turn
    constructor
    · rintro ⟨hk, hturn⟩
      rwa [Nat.mod_eq_of_lt ((Nat.div_lt_iff_lt_mul hs).2 hk)] at hturn
    · intro hk
      have hlt := (hdiv.1 hk).2
      exact ⟨by omega, by rw [hk, Nat.mod_eq_of_lt hi]⟩
  rw [hrun, Nat.card_Ico, Nat.add_sub_cancel_left]

end Rotation

end Lib
