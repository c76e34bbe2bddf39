import Mathlib.Algebra.Order.Field.Power
import Mathlib.Algebra.Order.Floor.Semifield
import Mathlib.Data.Rat.Floor
import Mathlib.Tactic.Linarith
import Mathlib.Tactic.Ring
import Switchback.Lib.FloatOrder

/-!
# Rounding is monotone

Every operation rounds an exact value once, so it keeps the order that the exact operation keeps.
-/

namespace Lib

namespace Fp

variable {f : Format}

/-! ### The significand -/

theorem roundDiv_one (k : ℕ) : roundDiv k 1 = k := by
  simp [roundDiv, Nat.mod_one]

theorem roundDiv_mono {n d n' d' : ℕ} (hd : 0 < d) (hd' : 0 < d') (h : n * d' ≤ n' * d) :
    roundDiv n d ≤ roundDiv n' d' := by
  have hn := Nat.div_add_mod n d
  have hn' := Nat.div_add_mod n' d'
  have hr := Nat.mod_lt n hd
  have hle : n / d ≤ n' / d' := by
    rw [Nat.le_div_iff_mul_le hd']
    refine Nat.le_of_mul_le_mul_right ?_ hd
    calc n / d * d' * d = n / d * d * d' := by ring
      _ ≤ n * d' := Nat.mul_le_mul_right _ (Nat.div_mul_le_self n d)
      _ ≤ n' * d := h
  rcases Nat.lt_or_eq_of_le hle with hlt | heq
  · have hup : roundDiv n d ≤ n / d + 1 := by
      unfold roundDiv
      dsimp only
      split_ifs <;> omega
    have hdown : n' / d' ≤ roundDiv n' d' := by
      unfold roundDiv
      dsimp only
      split_ifs <;> omega
    omega
  · -- the remainders decide
    have hrem : n % d * d' ≤ n' % d' * d := by
      have hsum : (d * (n / d) + n % d) * d' ≤ (d' * (n / d) + n' % d') * d := by
        rw [hn]
        rw [← heq] at hn'
        rwa [hn']
      nlinarith only [hsum]
    unfold roundDiv
    dsimp only
    rw [← heq]
    split_ifs with hup hup'
    · exact le_rfl
    · rw [not_or, not_lt] at hup'
      obtain ⟨hhalf', hodd'⟩ := hup'
      have hhalf : d ≤ 2 * (n % d) := by omega
      have hge : d' ≤ 2 * (n' % d') := by
        refine Nat.le_of_mul_le_mul_right ?_ hd
        nlinarith only [Nat.mul_le_mul_right d' hhalf, hrem]
      have hup : d < 2 * (n % d) := by omega
      have hlt : d * d' < 2 * (n % d) * d' := Nat.mul_lt_mul_of_pos_right hup hd'
      nlinarith only [hlt, hrem, Nat.mul_le_mul_right d hhalf']
    · exact Nat.le_succ _
    · exact le_rfl

theorem roundDiv_le {n d k : ℕ} (hd : 0 < d) (h : n ≤ k * d) : roundDiv n d ≤ k := by
  have hmono := @roundDiv_mono n d k 1 hd Nat.one_pos (by rwa [Nat.mul_one])
  rwa [roundDiv_one] at hmono

theorem le_roundDiv {n d k : ℕ} (hd : 0 < d) (h : k * d ≤ n) : k ≤ roundDiv n d := by
  have hmono := @roundDiv_mono k 1 n d Nat.one_pos hd (by rwa [Nat.mul_one])
  rwa [roundDiv_one] at hmono

/-! ### The exponent -/

theorem scale_den_pos {num den : ℕ} (hd : 0 < den) (e : ℤ) : 0 < (scale num den e).2 := by
  unfold scale
  split_ifs
  · exact Nat.mul_pos hd (by positivity)
  · exact hd

/-- Scaling divides by a power of two. -/
theorem scale_div (num den : ℕ) (e : ℤ) :
    ((scale num den e).1 : ℚ) / (scale num den e).2 = (num : ℚ) / den / 2 ^ e := by
  unfold scale
  split_ifs with he
  · obtain ⟨n, rfl⟩ := Int.eq_ofNat_of_zero_le he
    rw [Int.toNat_natCast, zpow_natCast]
    push_cast
    rw [div_div]
  · obtain ⟨n, hn⟩ := Int.eq_ofNat_of_zero_le (show 0 ≤ -e by omega)
    rw [hn, Int.toNat_natCast, show e = -(n : ℤ) by omega, zpow_neg, zpow_natCast, div_inv_eq_mul]
    push_cast
    rw [mul_div_right_comm]

/-- The significand of a quotient, before a carry. -/
def significand (num den : ℕ) (e : ℤ) : ℕ := roundDiv (scale num den e).1 (scale num den e).2

theorem significand_mono {num den num' den' : ℕ} (hd : 0 < den) (hd' : 0 < den')
    (h : (num : ℚ) / den ≤ num' / den') (e : ℤ) :
    significand num den e ≤ significand num' den' e := by
  have hpos : (0 : ℚ) < (scale num den e).2 := by exact_mod_cast scale_den_pos hd e
  have hpos' : (0 : ℚ) < (scale num' den' e).2 := by exact_mod_cast scale_den_pos hd' e
  have hdiv : ((scale num den e).1 : ℚ) / (scale num den e).2 ≤
      (scale num' den' e).1 / (scale num' den' e).2 := by
    rw [scale_div, scale_div]
    exact div_le_div_of_nonneg_right h (by positivity)
  rw [div_le_div_iff₀ hpos hpos'] at hdiv
  exact roundDiv_mono (scale_den_pos hd e) (scale_den_pos hd' e) (by exact_mod_cast hdiv)

theorem significand_le {num den k : ℕ} (hd : 0 < den) {e : ℤ}
    (h : (num : ℚ) / den ≤ k * 2 ^ e) : significand num den e ≤ k := by
  have hpos : (0 : ℚ) < (scale num den e).2 := by exact_mod_cast scale_den_pos hd e
  refine roundDiv_le (scale_den_pos hd e) ?_
  have hdiv : ((scale num den e).1 : ℚ) / (scale num den e).2 ≤ k := by
    rw [scale_div, div_le_iff₀ (by positivity)]
    exact h
  rw [div_le_iff₀ hpos] at hdiv
  exact_mod_cast hdiv

theorem le_significand {num den k : ℕ} (hd : 0 < den) {e : ℤ}
    (h : k * 2 ^ e ≤ (num : ℚ) / den) : k ≤ significand num den e := by
  have hpos : (0 : ℚ) < (scale num den e).2 := by exact_mod_cast scale_den_pos hd e
  refine le_roundDiv (scale_den_pos hd e) ?_
  have hdiv : (k : ℚ) ≤ ((scale num den e).1 : ℚ) / (scale num den e).2 := by
    rw [scale_div, le_div_iff₀ (by positivity)]
    exact h
  rw [le_div_iff₀ hpos] at hdiv
  exact_mod_cast hdiv

/-- **The binary logarithm.** -/
theorem floorLog2_spec {num den : ℕ} (hn : 0 < num) (hd : 0 < den) :
    (2 : ℚ) ^ floorLog2 num den ≤ num / den ∧ (num : ℚ) / den < 2 ^ (floorLog2 num den + 1) := by
  have hnum : (2 : ℚ) ^ (num.log2 : ℤ) ≤ num ∧ (num : ℚ) < 2 ^ ((num.log2 : ℤ) + 1) := by
    constructor
    · rw [zpow_natCast]
      exact_mod_cast Nat.log2_self_le hn.ne'
    · rw [show (num.log2 : ℤ) + 1 = ((num.log2 + 1 : ℕ) : ℤ) by push_cast; rfl, zpow_natCast]
      exact_mod_cast Nat.lt_log2_self
  have hden : (2 : ℚ) ^ (den.log2 : ℤ) ≤ den ∧ (den : ℚ) < 2 ^ ((den.log2 : ℤ) + 1) := by
    constructor
    · rw [zpow_natCast]
      exact_mod_cast Nat.log2_self_le hd.ne'
    · rw [show (den.log2 : ℤ) + 1 = ((den.log2 + 1 : ℕ) : ℤ) by push_cast; rfl, zpow_natCast]
      exact_mod_cast Nat.lt_log2_self
  have hdq : (0 : ℚ) < den := by exact_mod_cast hd
  have htwo : (2 : ℚ) ≠ 0 := by norm_num
  have hpow (a b : ℤ) : (2 : ℚ) ^ (a + b) = 2 ^ a * 2 ^ b := zpow_add₀ htwo a b
  -- the quotient lies between the two candidates and the power above them
  have hlow : (2 : ℚ) ^ ((num.log2 : ℤ) - den.log2 - 1) ≤ num / den := by
    rw [le_div_iff₀ hdq]
    calc (2 : ℚ) ^ ((num.log2 : ℤ) - den.log2 - 1) * den
        ≤ 2 ^ ((num.log2 : ℤ) - den.log2 - 1) * 2 ^ ((den.log2 : ℤ) + 1) :=
          mul_le_mul_of_nonneg_left hden.2.le (by positivity)
      _ = 2 ^ (num.log2 : ℤ) := by
          rw [← hpow]
          congr 1
          ring
      _ ≤ num := hnum.1
  have hhigh : (num : ℚ) / den < 2 ^ ((num.log2 : ℤ) - den.log2 + 1) := by
    rw [div_lt_iff₀ hdq]
    calc (num : ℚ) < 2 ^ ((num.log2 : ℤ) + 1) := hnum.2
      _ = 2 ^ ((num.log2 : ℤ) - den.log2 + 1) * 2 ^ (den.log2 : ℤ) := by
          rw [← hpow]
          congr 1
          ring
      _ ≤ 2 ^ ((num.log2 : ℤ) - den.log2 + 1) * den :=
          mul_le_mul_of_nonneg_left hden.1 (by positivity)
  have hcmp : (scale num den ((num.log2 : ℤ) - den.log2)).2 ≤
      (scale num den ((num.log2 : ℤ) - den.log2)).1 ↔
        (2 : ℚ) ^ ((num.log2 : ℤ) - den.log2) ≤ num / den := by
    have hpos : (0 : ℚ) < (scale num den ((num.log2 : ℤ) - den.log2)).2 := by
      exact_mod_cast scale_den_pos hd _
    rw [← one_le_div (by positivity : (0 : ℚ) < 2 ^ ((num.log2 : ℤ) - den.log2)), ← scale_div,
      one_le_div hpos]
    exact_mod_cast Iff.rfl
  unfold floorLog2
  dsimp only
  split_ifs with hle
  · exact ⟨hcmp.1 hle, hhigh⟩
  · rw [hcmp, not_le] at hle
    exact ⟨hlow, by rwa [sub_add_cancel]⟩

theorem floorLog2_mono {num den num' den' : ℕ} (hn : 0 < num) (hd : 0 < den) (hn' : 0 < num')
    (hd' : 0 < den') (h : (num : ℚ) / den ≤ num' / den') :
    floorLog2 num den ≤ floorLog2 num' den' := by
  have hlt := (floorLog2_spec hn hd).1.trans_lt (h.trans_lt (floorLog2_spec hn' hd').2)
  rw [zpow_lt_zpow_iff_right₀ (by norm_num)] at hlt
  omega

/-- The exponent of a quotient, before a carry. -/
def exponent (f : Format) (num den : ℕ) : ℤ :=
  Max.max (floorLog2 num den - ((f.prec : ℤ) - 1)) f.emin

theorem significand_le_prec (f : Format) {num den : ℕ} (hn : 0 < num) (hd : 0 < den) :
    significand num den (exponent f num den) ≤ 2 ^ f.prec := by
  refine significand_le hd ((floorLog2_spec hn hd).2.le.trans ?_)
  rw [Nat.cast_pow, Nat.cast_ofNat, ← zpow_natCast, ← zpow_add₀ (by norm_num)]
  refine zpow_le_zpow_right₀ (by norm_num) ?_
  unfold exponent
  omega

theorem prec_le_significand {f : Format} {num den : ℕ} (hn : 0 < num) (hd : 0 < den)
    (hp : 0 < f.prec) (he : f.emin < exponent f num den) :
    2 ^ (f.prec - 1) ≤ significand num den (exponent f num den) := by
  refine le_significand hd (le_trans ?_ (floorLog2_spec hn hd).1)
  rw [Nat.cast_pow, Nat.cast_ofNat, ← zpow_natCast, ← zpow_add₀ (by norm_num)]
  refine zpow_le_zpow_right₀ (by norm_num) ?_
  unfold exponent at he ⊢
  omega

/-! ### Rounding -/

/-- Rounding up to a power of two moves to the next binade. -/
def carry (f : Format) (m : ℕ) (e : ℤ) : ℕ × ℤ :=
  if m = 2 ^ f.prec then (2 ^ (f.prec - 1), e + 1) else (m, e)

theorem carry_value {f : Format} (hp : 0 < f.prec) (m : ℕ) (e : ℤ) :
    ((carry f m e).1 : ℚ) * 2 ^ (carry f m e).2 = m * 2 ^ e := by
  unfold carry
  split_ifs with hm
  · have hpow : (2 : ℚ) ^ f.prec = 2 ^ (f.prec - 1) * 2 := by
      rw [← pow_succ, Nat.sub_add_cancel hp]
    rw [hm]
    push_cast
    rw [hpow, zpow_add_one₀ (by norm_num)]
    ring
  · rfl

theorem round_eq {num : ℕ} (hn : 0 < num) (den : ℕ) :
    (round false num den : Fp f) =
      if f.emax < (carry f (significand num den (exponent f num den)) (exponent f num den)).2 then
        .inf false
      else .fin false (carry f (significand num den (exponent f num den)) (exponent f num den)).1
        (carry f (significand num den (exponent f num den)) (exponent f num den)).2 := by
  rw [round, if_neg hn.ne']
  rfl

theorem toRat_fin (m : ℕ) (e : ℤ) : (Fp.fin false m e : Fp f).toRat = m * 2 ^ e := by
  rw [toRat, exact]
  rcases Int.le_total 0 e with he | he
  · obtain ⟨n, rfl⟩ := Int.eq_ofNat_of_zero_le he
    rw [Int.toNat_of_nonpos (by omega : -(n : ℤ) ≤ 0), Int.toNat_natCast, zpow_natCast]
    push_cast
    simp
  · obtain ⟨n, hn⟩ := Int.eq_ofNat_of_zero_le (show 0 ≤ -e by omega)
    rw [Int.toNat_of_nonpos he, hn, Int.toNat_natCast, show e = -(n : ℤ) by omega, zpow_neg,
      zpow_natCast]
    push_cast
    simp [div_eq_mul_inv]

theorem rank_fin_le_iff {m m' : ℕ} {e e' : ℤ} :
    (Fp.fin false m e : Fp f).rank ≤ (Fp.fin false m' e' : Fp f).rank ↔
      (m : ℚ) * 2 ^ e ≤ m' * 2 ^ e' := by
  rw [← toRat_fin (f := f), ← toRat_fin (f := f)]
  show ((((Fp.fin false m e : Fp f).toRat : WithTop ℚ)) : WithBot (WithTop ℚ)) ≤ _ ↔ _
  exact WithBot.coe_le_coe.trans WithTop.coe_le_coe

theorem rank_le_inf (x : Fp f) : x.rank ≤ (Fp.inf false : Fp f).rank := by
  show x.rank ≤ ((⊤ : WithTop ℚ) : WithBot (WithTop ℚ))
  exact le_top

/-- A datum that is neither negative nor NaN. -/
def NonNeg : Fp f → Prop
  | .inf false => True
  | .fin false _ _ => True
  | _ => False

theorem round_nonNeg (num den : ℕ) : (round false num den : Fp f).NonNeg := by
  rcases Nat.eq_zero_or_pos num with rfl | hn
  · exact trivial
  · rw [round_eq hn]
    split_ifs <;> exact trivial

theorem NonNeg.rank_nonneg {x : Fp f} (h : x.NonNeg) {e : ℤ} :
    (Fp.fin false 0 e : Fp f).rank ≤ x.rank := by
  cases x with
  | nan => cases h
  | inf s =>
    cases s with
    | true => cases h
    | false => exact rank_le_inf _
  | fin s m k =>
    cases s with
    | true => cases h
    | false =>
      rw [rank_fin_le_iff, Nat.cast_zero, zero_mul]
      positivity

theorem carry_mono {num den num' den' : ℕ} (hn : 0 < num) (hd : 0 < den) (hn' : 0 < num')
    (hd' : 0 < den') (h : (num : ℚ) / den ≤ num' / den') :
    (carry f (significand num den (exponent f num den)) (exponent f num den)).2 ≤
      (carry f (significand num' den' (exponent f num' den')) (exponent f num' den')).2 := by
  have hlog := floorLog2_mono hn hd hn' hd' h
  have hexp : exponent f num den ≤ exponent f num' den' := by
    unfold exponent
    omega
  rcases lt_or_eq_of_le hexp with hlt | heq
  · unfold carry
    split_ifs <;> omega
  · -- in one binade a carry of the smaller one is a carry of the larger one
    have hle := significand_le_prec f hn' hd'
    rw [← heq] at hle ⊢
    have hmono := significand_mono hd hd' h (exponent f num den)
    unfold carry
    split_ifs <;> omega

/-- **Rounding is monotone.** -/
theorem round_mono (hp : 0 < f.prec) {num den num' den' : ℕ} (hd : 0 < den) (hd' : 0 < den')
    (h : (num : ℚ) / den ≤ num' / den') :
    (round false num den : Fp f).rank ≤ (round false num' den' : Fp f).rank := by
  rcases Nat.eq_zero_or_pos num with rfl | hn
  · exact (round_nonNeg num' den').rank_nonneg
  have hn' : 0 < num' := by
    by_contra hzero
    obtain rfl : num' = 0 := by omega
    rw [Nat.cast_zero, zero_div, div_le_iff₀ (by exact_mod_cast hd), zero_mul] at h
    have : num ≤ 0 := by exact_mod_cast h
    omega
  have hcarry := carry_mono (f := f) hn hd hn' hd' h
  rw [round_eq hn, round_eq hn']
  split_ifs with hinf hinf' hinf'
  · exact le_rfl
  · omega
  · exact rank_le_inf _
  · rw [rank_fin_le_iff, carry_value hp, carry_value hp]
    have hlog := floorLog2_mono hn hd hn' hd' h
    have hexp : exponent f num den ≤ exponent f num' den' := by
      unfold exponent
      omega
    rcases lt_or_eq_of_le hexp with hlt | heq
    · -- the power of two between the binades is between the rounded values
      have hmin : f.emin < exponent f num' den' := lt_of_le_of_lt (le_max_right _ _) hlt
      have hlow := prec_le_significand hn' hd' hp hmin
      have hhigh := significand_le_prec f hn hd
      calc (significand num den (exponent f num den) : ℚ) * 2 ^ exponent f num den
          ≤ (2 : ℚ) ^ (f.prec : ℤ) * 2 ^ exponent f num den := by
            refine mul_le_mul_of_nonneg_right ?_ (by positivity)
            rw [zpow_natCast]
            exact_mod_cast hhigh
        _ = 2 ^ ((f.prec : ℤ) + exponent f num den) := (zpow_add₀ (by norm_num) _ _).symm
        _ ≤ 2 ^ (((f.prec - 1 : ℕ) : ℤ) + exponent f num' den') := by
            refine zpow_le_zpow_right₀ (by norm_num) ?_
            omega
        _ = (2 : ℚ) ^ ((f.prec - 1 : ℕ) : ℤ) * 2 ^ exponent f num' den' :=
            zpow_add₀ (by norm_num) _ _
        _ ≤ significand num' den' (exponent f num' den') * 2 ^ exponent f num' den' := by
            refine mul_le_mul_of_nonneg_right ?_ (by positivity)
            rw [zpow_natCast]
            exact_mod_cast hlow
    · rw [← heq]
      refine mul_le_mul_of_nonneg_right ?_ (by positivity)
      exact_mod_cast significand_mono hd hd' h _

/-! ### Products and sums -/

/-- The exact value of a finite datum that is not negative. -/
theorem natAbs_exact (m : ℕ) (e : ℤ) :
    ((exact false m e).1.natAbs : ℚ) / 2 ^ (exact false m e).2 = m * 2 ^ e := by
  have hnat : ((exact false m e).1.natAbs : ℚ) = (exact false m e).1 := by
    show (((m * 2 ^ e.toNat : ℕ) : ℤ).natAbs : ℚ) = (((m * 2 ^ e.toNat : ℕ) : ℤ) : ℚ)
    rw [Int.natAbs_natCast, Int.cast_natCast]
  rw [hnat, ← toRat_fin (f := binary64)]
  rfl

/-- A product rounds the product of the exact values. -/
theorem mul_fin (m k : ℕ) (e l : ℤ) : ∃ num den, 0 < den ∧
    (Fp.fin false m e * Fp.fin false k l : Fp f) = round false num den ∧
      (num : ℚ) / den = (m * 2 ^ e) * (k * 2 ^ l) := by
  refine ⟨((exact false m e).1 * (exact false k l).1).natAbs,
    2 ^ ((exact false m e).2 + (exact false k l).2), by positivity, rfl, ?_⟩
  rw [← natAbs_exact m e, ← natAbs_exact k l, Int.natAbs_mul, div_mul_div_comm]
  push_cast
  rw [pow_add]

theorem div_fin (m : ℕ) {k : ℕ} (hk : 0 < k) (e l : ℤ) : ∃ num den, 0 < den ∧
    (Fp.fin false m e / Fp.fin false k l : Fp f) = round false num den ∧
      (num : ℚ) / den = (m * 2 ^ e) / (k * 2 ^ l) := by
  have hpos : 0 < (exact false k l).1.natAbs := by
    show 0 < ((k * 2 ^ l.toNat : ℕ) : ℤ).natAbs
    rw [Int.natAbs_natCast]
    positivity
  refine ⟨(exact false m e).1.natAbs * 2 ^ (exact false k l).2,
    (exact false k l).1.natAbs * 2 ^ (exact false m e).2, by positivity, ?_, ?_⟩
  · show (if k = 0 then _ else _) = _
    rw [if_neg hk.ne']
    rfl
  · rw [← natAbs_exact m e, ← natAbs_exact k l, div_div_div_eq]
    push_cast
    rw [mul_comm ((exact false k l).1.natAbs : ℚ)]

/-- **Products are monotone.** -/
theorem mul_mono (hp : 0 < f.prec) {m m' k : ℕ} {e e' l : ℤ}
    (h : (Fp.fin false m e : Fp f).rank ≤ (Fp.fin false m' e' : Fp f).rank) :
    (Fp.fin false m e * Fp.fin false k l : Fp f).rank ≤
      (Fp.fin false m' e' * Fp.fin false k l : Fp f).rank := by
  obtain ⟨num, den, hd, hmul, hval⟩ := mul_fin (f := f) m k e l
  obtain ⟨num', den', hd', hmul', hval'⟩ := mul_fin (f := f) m' k e' l
  rw [hmul, hmul']
  refine round_mono hp hd hd' ?_
  rw [hval, hval']
  exact mul_le_mul_of_nonneg_right (rank_fin_le_iff.1 h) (by positivity)

theorem ofExact_natCast (n k : ℕ) : (ofExact false n k : Fp f) = round false n (2 ^ k) := by
  unfold ofExact
  split_ifs with hn
  · obtain rfl : n = 0 := by omega
    rfl
  · rw [Int.natAbs_natCast, decide_eq_false (by omega : ¬ (n : ℤ) < 0)]

/-- A sum rounds the sum of the exact values. -/
theorem add_fin (m k : ℕ) (e l : ℤ) : ∃ num den, 0 < den ∧
    (Fp.fin false m e + Fp.fin false k l : Fp f) = round false num den ∧
      (num : ℚ) / den = m * 2 ^ e + k * 2 ^ l := by
  generalize ha : exact false m e = a
  generalize hb : exact false k l = b
  have hval := natAbs_exact m e
  have hval' := natAbs_exact k l
  have hcast : (a.1.natAbs : ℤ) = a.1 := by rw [← ha]; rfl
  have hcast' : (b.1.natAbs : ℤ) = b.1 := by rw [← hb]; rfl
  rw [ha] at hval
  rw [hb] at hval'
  have hle : a.2 ≤ Max.max a.2 b.2 := le_max_left _ _
  have hle' : b.2 ≤ Max.max a.2 b.2 := le_max_right _ _
  generalize hk : Max.max a.2 b.2 = n at hle hle'
  refine ⟨a.1.natAbs * 2 ^ (n - a.2) + b.1.natAbs * 2 ^ (n - b.2), 2 ^ n, by positivity, ?_, ?_⟩
  · rw [← ofExact_natCast]
    show ofExact (false && false) ((exact false m e).1 *
        2 ^ (Max.max (exact false m e).2 (exact false k l).2 - (exact false m e).2) +
      (exact false k l).1 *
        2 ^ (Max.max (exact false m e).2 (exact false k l).2 - (exact false k l).2))
      (Max.max (exact false m e).2 (exact false k l).2) = _
    rw [ha, hb, hk]
    rw [Nat.cast_add, Nat.cast_mul, Nat.cast_mul, hcast, hcast', Nat.cast_pow, Nat.cast_pow]
    rfl
  · rw [← hval, ← hval']
    have hpow : (2 : ℚ) ^ n = 2 ^ (n - a.2) * 2 ^ a.2 := by rw [← pow_add, Nat.sub_add_cancel hle]
    have hpow' : (2 : ℚ) ^ n = 2 ^ (n - b.2) * 2 ^ b.2 := by
      rw [← pow_add, Nat.sub_add_cancel hle']
    push_cast
    rw [add_div]
    nth_rewrite 1 [hpow]
    rw [hpow']
    rw [mul_comm (2 ^ (n - a.2) : ℚ), mul_comm (2 ^ (n - b.2) : ℚ),
      mul_div_mul_right _ _ (by positivity), mul_div_mul_right _ _ (by positivity)]

theorem add_nonNeg {x y : Fp f} (hx : x.NonNeg) (hy : y.NonNeg) : (x + y).NonNeg := by
  cases x with
  | nan => cases hx
  | inf s =>
    cases s with
    | true => cases hx
    | false =>
      cases y with
      | nan => cases hy
      | inf t =>
        cases t with
        | true => cases hy
        | false => trivial
      | fin t k l => trivial
  | fin s m e =>
    cases s with
    | true => cases hx
    | false =>
      cases y with
      | nan => cases hy
      | inf t =>
        cases t with
        | true => cases hy
        | false => trivial
      | fin t k l =>
        cases t with
        | true => cases hy
        | false =>
          obtain ⟨num, den, -, hadd, -⟩ := add_fin (f := f) m k e l
          rw [hadd]
          exact round_nonNeg num den

theorem add_inf {x y : Fp f} (hx : x.NonNeg) (hy : y.NonNeg)
    (h : x = .inf false ∨ y = .inf false) : x + y = .inf false := by
  cases x with
  | nan => cases hx
  | inf s =>
    cases s with
    | true => cases hx
    | false =>
      cases y with
      | nan => cases hy
      | inf t =>
        cases t with
        | true => cases hy
        | false => rfl
      | fin t k l => rfl
  | fin s m e =>
    rcases h with h | rfl
    · cases h
    · rfl

/-- A datum is infinite or finite, and where a smaller one is infinite, it is infinite. -/
theorem NonNeg.cases_of_le {x y : Fp f} (hx : x.NonNeg) (hy : y.NonNeg) (h : x.rank ≤ y.rank) :
    y = .inf false ∨ ∃ m e k l, x = .fin false m e ∧ y = .fin false k l := by
  cases y with
  | nan => cases hy
  | inf t =>
    cases t with
    | true => cases hy
    | false => exact Or.inl rfl
  | fin t k l =>
    cases t with
    | true => cases hy
    | false =>
      cases x with
      | nan => cases hx
      | inf s =>
        cases s with
        | true => cases hx
        | false => exact absurd h (not_le.2 (coe_lt_top _))
      | fin s m e =>
        cases s with
        | true => cases hx
        | false => exact Or.inr ⟨m, e, k, l, rfl, rfl⟩

/-- **Sums are monotone.** -/
theorem add_mono (hp : 0 < f.prec) {x x' y y' : Fp f} (hx : x.NonNeg) (hx' : x'.NonNeg)
    (hy : y.NonNeg) (hy' : y'.NonNeg) (hxx : x.rank ≤ x'.rank) (hyy : y.rank ≤ y'.rank) :
    (x + y).rank ≤ (x' + y').rank := by
  rcases hx.cases_of_le hx' hxx with rfl | ⟨m, e, m', e', rfl, rfl⟩
  · rw [add_inf hx' hy' (Or.inl rfl)]
    exact rank_le_inf _
  rcases hy.cases_of_le hy' hyy with rfl | ⟨k, l, k', l', rfl, rfl⟩
  · rw [add_inf hx' hy' (Or.inr rfl)]
    exact rank_le_inf _
  obtain ⟨num, den, hd, hadd, hval⟩ := add_fin (f := f) m k e l
  obtain ⟨num', den', hd', hadd', hval'⟩ := add_fin (f := f) m' k' e' l'
  rw [hadd, hadd']
  refine round_mono hp hd hd' ?_
  rw [hval, hval']
  exact add_le_add (rank_fin_le_iff.1 hxx) (rank_fin_le_iff.1 hyy)

/-! ### Integers -/

/-- Rounding to an integer, halves away from zero. -/
def nearest : Fp f → Fp f
  | .fin s m e =>
    let a := exact false m e
    round s ((2 * a.1.natAbs + 2 ^ a.2) / (2 * 2 ^ a.2)) 1
  | x => x

/-- The cast to an unsigned word of 64 bits, which saturates; NaN gives zero. -/
def toU64 : Fp f → ℕ
  | .nan => 0
  | .inf s => if s then 0 else 2 ^ 64 - 1
  | .fin s m e =>
    let a := exact s m e
    Min.min (a.1.toNat / 2 ^ a.2) (2 ^ 64 - 1)

theorem max_zero {x : Fp f} (hx : x.NonNeg) : max x zero = x := by
  have hnan : x.isNan = false := by
    cases x with
    | nan => cases hx
    | inf s => rfl
    | fin s m e => rfl
  obtain ⟨o, hcmp, hord⟩ := partialCmp_compares hnan (y := zero) rfl
  have hle : (zero : Fp f).rank ≤ x.rank := hx.rank_nonneg
  have hlt : lt x zero = false := by
    rw [lt, hcmp]
    cases o with
    | lt => exact absurd hle (not_le.2 hord)
    | eq => rfl
    | gt => rfl
  rw [max, hnan, hlt]
  rfl

theorem nearest_nonNeg {x : Fp f} (hx : x.NonNeg) : (nearest x).NonNeg := by
  cases x with
  | nan => cases hx
  | inf s => exact hx
  | fin s m e =>
    cases s with
    | true => cases hx
    | false => exact round_nonNeg _ _

theorem natAbs_exact_mul_le {m m' : ℕ} {e e' : ℤ} (h : (m : ℚ) * 2 ^ e ≤ m' * 2 ^ e') :
    (exact false m e).1.natAbs * 2 ^ (exact false m' e').2 ≤
      (exact false m' e').1.natAbs * 2 ^ (exact false m e).2 := by
  rw [← natAbs_exact m e, ← natAbs_exact m' e', div_le_div_iff₀ (by positivity) (by positivity)] at h
  exact_mod_cast h

/-- **Rounding to an integer is monotone.** -/
theorem nearest_mono (hp : 0 < f.prec) {x y : Fp f} (hx : x.NonNeg) (hy : y.NonNeg)
    (h : x.rank ≤ y.rank) : (nearest x).rank ≤ (nearest y).rank := by
  rcases hx.cases_of_le hy h with rfl | ⟨m, e, m', e', rfl, rfl⟩
  · exact rank_le_inf _
  have hcross := natAbs_exact_mul_le (rank_fin_le_iff.1 h)
  refine round_mono hp Nat.one_pos Nat.one_pos ?_
  rw [Nat.cast_one, div_one, div_one, Nat.cast_le]
  generalize (exact false m e).1.natAbs = n at *
  generalize (exact false m' e').1.natAbs = n' at *
  generalize hk : 2 ^ (exact false m e).2 = k at *
  generalize hk' : 2 ^ (exact false m' e').2 = k' at *
  have hpos : 0 < k := by rw [← hk]; positivity
  have hpos' : 0 < k' := by rw [← hk']; positivity
  rw [Nat.le_div_iff_mul_le (by omega)]
  refine Nat.le_of_mul_le_mul_right ?_ (show 0 < 2 * k by omega)
  calc (2 * n + k) / (2 * k) * (2 * k') * (2 * k)
      = (2 * n + k) / (2 * k) * (2 * k) * (2 * k') := by ring
    _ ≤ (2 * n + k) * (2 * k') := Nat.mul_le_mul_right _ (Nat.div_mul_le_self _ _)
    _ = 4 * (n * k') + 2 * k * k' := by ring
    _ ≤ 4 * (n' * k) + 2 * k * k' := by omega
    _ = (2 * n' + k') * (2 * k) := by ring

/-- **The cast to a word is monotone.** -/
theorem toU64_mono {x y : Fp f} (hx : x.NonNeg) (hy : y.NonNeg) (h : x.rank ≤ y.rank) :
    toU64 x ≤ toU64 y := by
  rcases hx.cases_of_le hy h with rfl | ⟨m, e, m', e', rfl, rfl⟩
  · cases x with
    | nan => cases hx
    | inf s =>
      cases s with
      | true => cases hx
      | false => exact le_rfl
    | fin s m e => exact Nat.min_le_right _ _
  · have hcross := natAbs_exact_mul_le (rank_fin_le_iff.1 h)
    have hcast (n : ℕ) (k : ℤ) : (exact false n k).1.toNat = (exact false n k).1.natAbs := rfl
    show Min.min ((exact false m e).1.toNat / 2 ^ (exact false m e).2) (2 ^ 64 - 1) ≤
      Min.min ((exact false m' e').1.toNat / 2 ^ (exact false m' e').2) (2 ^ 64 - 1)
    rw [hcast, hcast]
    refine min_le_min_right _ ?_
    generalize (exact false m e).1.natAbs = n at *
    generalize (exact false m' e').1.natAbs = n' at *
    generalize hk : 2 ^ (exact false m e).2 = k at *
    generalize hk' : 2 ^ (exact false m' e').2 = k' at *
    have hpos : 0 < k := by rw [← hk]; positivity
    have hpos' : 0 < k' := by rw [← hk']; positivity
    rw [Nat.le_div_iff_mul_le hpos']
    refine Nat.le_of_mul_le_mul_right ?_ hpos
    calc n / k * k' * k = n / k * k * k' := by ring
      _ ≤ n * k' := Nat.mul_le_mul_right _ (Nat.div_mul_le_self n k)
      _ ≤ n' * k := hcross

/-! ### Exact results -/

/-- A finite datum with its value; the last bit of its significand is at most `2 ^ k`. -/
def Holds (x : Fp f) (k : ℤ) (v : ℚ) : Prop :=
  ∃ m e, x = .fin false m e ∧ m ≤ 2 ^ f.prec ∧ f.emin ≤ e ∧ e ≤ k ∧ (m : ℚ) * 2 ^ e = v

theorem Holds.toRat {x : Fp f} {k : ℤ} {v : ℚ} (h : x.Holds k v) : x.toRat = v := by
  obtain ⟨m, e, rfl, -, -, -, hv⟩ := h
  rw [toRat_fin, hv]

theorem carry_fst_le {m : ℕ} (h : m ≤ 2 ^ f.prec) (e : ℤ) :
    (carry f m e).1 ≤ 2 ^ f.prec := by
  unfold carry
  split_ifs
  · exact Nat.pow_le_pow_right (by norm_num) (Nat.sub_le _ _)
  · exact h

theorem round_holds (hp : 0 < f.prec) {num den : ℕ} (hn : 0 < num) (hd : 0 < den) {k : ℤ}
    (hk : exponent f num den + 1 ≤ k) (hmax : k ≤ f.emax) :
    (round false num den : Fp f).Holds k
      (significand num den (exponent f num den) * 2 ^ exponent f num den) := by
  have hexp : exponent f num den ≤
        (carry f (significand num den (exponent f num den)) (exponent f num den)).2 ∧
      (carry f (significand num den (exponent f num den)) (exponent f num den)).2 ≤ k := by
    unfold carry
    split_ifs <;> constructor <;> dsimp only <;> omega
  have hmin : f.emin ≤ exponent f num den := le_max_right _ _
  rw [round_eq hn, if_neg (by omega)]
  exact ⟨_, _, rfl, carry_fst_le (significand_le_prec f hn hd) _, by omega, hexp.2,
    carry_value hp _ _⟩

/-- A quotient that is not too large is rounded to a finite datum. -/
theorem exists_round_holds (hp : 0 < f.prec) {num den k : ℕ} (hd : 0 < den)
    (h : num ≤ 2 ^ k * den) (hmin : f.emin + f.prec ≤ k + 1) (hmax : (k : ℤ) + 2 - f.prec ≤ f.emax) :
    ∃ v, (round false num den : Fp f).Holds (k + 2 - f.prec) v := by
  rcases Nat.eq_zero_or_pos num with rfl | hn
  · exact ⟨0, 0, f.emin, rfl, Nat.zero_le _, le_rfl, by omega, by simp⟩
  have hlog : floorLog2 num den ≤ k := by
    have hle : (num : ℚ) / den ≤ 2 ^ (k : ℤ) := by
      rw [div_le_iff₀ (by exact_mod_cast hd), zpow_natCast]
      exact_mod_cast h
    have hlt := (floorLog2_spec hn hd).1.trans hle
    rwa [zpow_le_zpow_iff_right₀ (by norm_num)] at hlt
  exact ⟨_, round_holds hp hn hd (by unfold exponent; omega) hmax⟩

theorem Holds.le {x : Fp f} {k : ℕ} {v : ℚ} (h : x.Holds k v) : v ≤ 2 ^ (f.prec + k) := by
  obtain ⟨m, e, -, hm, -, hle, rfl⟩ := h
  have hpow : (2 : ℚ) ^ e ≤ 2 ^ k := by
    rw [← zpow_natCast]
    exact zpow_le_zpow_right₀ (by norm_num) hle
  rw [pow_add]
  exact mul_le_mul (by exact_mod_cast hm) hpow (by positivity) (by positivity)

theorem Holds.nonneg {x : Fp f} {k : ℤ} {v : ℚ} (h : x.Holds k v) : 0 ≤ v := by
  obtain ⟨m, e, -, -, -, -, rfl⟩ := h
  positivity

theorem Holds.nonNeg {x : Fp f} {k : ℤ} {v : ℚ} (h : x.Holds k v) : x.NonNeg := by
  obtain ⟨m, e, rfl, -⟩ := h
  exact trivial

/-- A product of two data is finite where the exponents leave room for it. -/
theorem Holds.mul (hp : 0 < f.prec) {x y : Fp f} {k l : ℕ} {v w : ℚ} (hx : x.Holds k v)
    (hy : y.Holds l w) (hmin : f.emin ≤ 0) (hmax : (f.prec : ℤ) + k + l + 2 ≤ f.emax) :
    ∃ u, (x * y).Holds (f.prec + k + l + 2) u := by
  have hv := hx.le
  have hw := hy.le
  have hv₀ := hx.nonneg
  have hw₀ := hy.nonneg
  obtain ⟨m, e, rfl, -, -, -, rfl⟩ := hx
  obtain ⟨n, d, rfl, -, -, -, rfl⟩ := hy
  obtain ⟨num, den, hd, hmul, hval⟩ := mul_fin (f := f) m n e d
  have hle : num ≤ 2 ^ (f.prec + k + (f.prec + l)) * den := by
    have hq : (num : ℚ) / den ≤ 2 ^ (f.prec + k + (f.prec + l)) := by
      rw [hval, pow_add _ (f.prec + k)]
      exact mul_le_mul hv hw hw₀ (by positivity)
    rw [div_le_iff₀ (by exact_mod_cast hd)] at hq
    exact_mod_cast hq
  obtain ⟨u, hu⟩ := exists_round_holds (f := f) hp hd hle (by omega) (by push_cast; omega)
  refine ⟨u, ?_⟩
  rw [hmul]
  convert hu using 1
  push_cast
  ring

theorem Holds.mul_of_zero {x y : Fp f} {k l : ℤ} {w : ℚ} (hx : x.Holds k 0) (hy : y.Holds l w) :
    (x * y).Holds f.emin 0 := by
  obtain ⟨m, e, rfl, -, -, -, hzero⟩ := hx
  obtain ⟨n, d, rfl, -⟩ := hy
  obtain ⟨num, den, hd, hmul, hval⟩ := mul_fin (f := f) m n e d
  rw [hzero, zero_mul, div_eq_zero_iff, Nat.cast_eq_zero, Nat.cast_eq_zero] at hval
  obtain rfl : num = 0 := hval.resolve_right hd.ne'
  rw [hmul]
  exact ⟨0, f.emin, rfl, Nat.zero_le _, le_rfl, le_rfl, by simp⟩

/-- **What the format holds is rounded to itself.** -/
theorem round_self (hp : 0 < f.prec) {num den m : ℕ} {e k : ℤ} (hd : 0 < den)
    (hm : m ≤ 2 ^ f.prec) (he : f.emin ≤ e) (hk : e + 2 ≤ k) (hmax : k ≤ f.emax)
    (h : (num : ℚ) / den = m * 2 ^ e) :
    (round false num den : Fp f).Holds k (m * 2 ^ e) := by
  rcases Nat.eq_zero_or_pos num with rfl | hn
  · exact ⟨0, f.emin, rfl, Nat.zero_le _, le_rfl, by omega, by rw [← h]; simp⟩
  have htwo : (2 : ℚ) ≠ 0 := by norm_num
  -- the last bit of the quotient is that of `m`, or the next one where `m` is a power of two
  have hle : exponent f num den ≤ e + 1 := by
    have hlt : (2 : ℚ) ^ floorLog2 num den ≤ 2 ^ (e + f.prec) := by
      refine (floorLog2_spec hn hd).1.trans ?_
      rw [h, add_comm, zpow_add₀ htwo, zpow_natCast]
      refine mul_le_mul_of_nonneg_right ?_ (by positivity)
      exact_mod_cast hm
    rw [zpow_le_zpow_iff_right₀ (by norm_num)] at hlt
    unfold exponent
    omega
  have hsig : (significand num den (exponent f num den) : ℚ) * 2 ^ exponent f num den =
      m * 2 ^ e := by
    suffices hwhole : ∃ j : ℕ, (m : ℚ) * 2 ^ e = j * 2 ^ exponent f num den by
      obtain ⟨j, hj⟩ := hwhole
      have hval : (num : ℚ) / den = j * 2 ^ exponent f num den := h.trans hj
      rw [hj, le_antisymm (significand_le hd hval.le) (le_significand hd hval.ge)]
    rcases hle.lt_or_eq with hlt | heq
    · obtain ⟨d, hdiff⟩ := Int.eq_ofNat_of_zero_le
        (show 0 ≤ e - exponent f num den by omega)
      refine ⟨m * 2 ^ d, ?_⟩
      rw [show e = d + exponent f num den by omega, zpow_add₀ htwo, zpow_natCast]
      push_cast
      ring
    · refine ⟨2 ^ (f.prec - 1), ?_⟩
      have hlog : floorLog2 num den = e + f.prec := by
        unfold exponent at heq
        omega
      have hge : (2 : ℚ) ^ (f.prec : ℤ) * 2 ^ e ≤ m * 2 ^ e := by
        rw [← zpow_add₀ htwo, ← h, add_comm, ← hlog]
        exact (floorLog2_spec hn hd).1
      have hmeq : (m : ℚ) = 2 ^ f.prec := by
        refine le_antisymm (by exact_mod_cast hm) ?_
        rw [← zpow_natCast]
        exact le_of_mul_le_mul_right hge (by positivity)
      have hpow : (2 : ℚ) ^ f.prec = 2 ^ (f.prec - 1) * 2 := by
        rw [← pow_succ, Nat.sub_add_cancel hp]
      rw [hmeq, heq, zpow_add_one₀ htwo, hpow]
      push_cast
      ring
  rw [← hsig]
  exact round_holds hp hn hd (by omega) hmax

/-- **A whole number that the format holds is itself as a datum.** -/
theorem ofNat_holds (hp : 0 < f.prec) {n : ℕ} {k : ℤ} (hn : n ≤ 2 ^ f.prec) (hmin : f.emin ≤ 0)
    (hk : 2 ≤ k) (hmax : k ≤ f.emax) : (ofNat n : Fp f).Holds k n := by
  have h := @round_self f hp n 1 n 0 k Nat.one_pos hn hmin (by omega) hmax (by simp)
  rwa [zpow_zero, mul_one] at h

theorem Holds.add_of_zero (hp : 0 < f.prec) {x y : Fp f} {k l : ℤ} {v : ℚ} (hx : x.Holds k v)
    (hy : y.Holds l 0) (hmax : k + 2 ≤ f.emax) : (x + y).Holds (k + 2) v := by
  obtain ⟨m, e, rfl, hm, hmin, hle, rfl⟩ := hx
  obtain ⟨n, d, rfl, -, -, -, hzero⟩ := hy
  obtain ⟨num, den, hd, hadd, hval⟩ := add_fin (f := f) m n e d
  rw [hadd]
  exact round_self hp hd hm hmin (by omega) hmax (by rw [hval, hzero, add_zero])

theorem Holds.of_zero_add (hp : 0 < f.prec) {x y : Fp f} {k l : ℤ} {v : ℚ} (hx : x.Holds l 0)
    (hy : y.Holds k v) (hmax : k + 2 ≤ f.emax) : (x + y).Holds (k + 2) v := by
  obtain ⟨n, d, rfl, -, -, -, hzero⟩ := hx
  obtain ⟨m, e, rfl, hm, hmin, hle, rfl⟩ := hy
  obtain ⟨num, den, hd, hadd, hval⟩ := add_fin (f := f) n m d e
  rw [hadd]
  exact round_self hp hd hm hmin (by omega) hmax (by rw [hval, hzero, zero_add])

/-- **Rounding to an integer is exact.** -/
theorem Holds.nearest (hp : 0 < f.prec) {x : Fp f} {k : ℤ} {v : ℚ} (hx : x.Holds k v)
    (hmin : f.emin ≤ 0) (hk : 0 ≤ k) (hmax : k + 2 ≤ f.emax) :
    x.nearest.Holds (k + 2) ⌊v + 1 / 2⌋₊ := by
  obtain ⟨m, e, rfl, hm, he, hle, rfl⟩ := hx
  have hfloor : (2 * (exact false m e).1.natAbs + 2 ^ (exact false m e).2) /
      (2 * 2 ^ (exact false m e).2) = ⌊(m : ℚ) * 2 ^ e + 1 / 2⌋₊ := by
    rw [← Nat.floor_div_eq_div (K := ℚ), ← natAbs_exact m e]
    congr 1
    push_cast
    have hpos : (2 : ℚ) ^ (exact false m e).2 ≠ 0 := by positivity
    field_simp
  have hround : (Fp.fin false m e : Fp f).nearest =
      round false ⌊(m : ℚ) * 2 ^ e + 1 / 2⌋₊ 1 := by
    rw [← hfloor]
    rfl
  rw [hround]
  rcases le_or_gt 0 e with hpos | hneg
  · -- a datum without a fraction is the integer
    obtain ⟨d, rfl⟩ := Int.eq_ofNat_of_zero_le hpos
    have hv : (m : ℚ) * 2 ^ (d : ℤ) = (m * 2 ^ d : ℕ) := by
      rw [zpow_natCast]
      push_cast
      rfl
    have hwhole : ⌊(m : ℚ) * 2 ^ (d : ℤ) + 1 / 2⌋₊ = m * 2 ^ d := by
      rw [hv, Nat.floor_eq_iff (by positivity)]
      constructor <;> linarith
    rw [hwhole, ← hv]
    exact round_self hp Nat.one_pos hm he (by omega) hmax (by rw [hv, Nat.cast_one, div_one])
  · refine ofNat_holds hp (Nat.floor_le_of_le ?_) hmin (by omega) hmax
    have hhalf : (2 : ℚ) ^ e ≤ 1 / 2 :=
      (zpow_le_zpow_right₀ (by norm_num) (show e ≤ -1 by omega)).trans_eq (by norm_num)
    have hmq : (m : ℚ) ≤ 2 ^ f.prec := by exact_mod_cast hm
    have hone : (1 : ℚ) ≤ 2 ^ f.prec := one_le_pow₀ (by norm_num)
    have hprod : (m : ℚ) * 2 ^ e ≤ 2 ^ f.prec * (1 / 2) :=
      mul_le_mul hmq hhalf (by positivity) (by positivity)
    push_cast
    linarith

/-- **The cast of a whole number saturates.** -/
theorem Holds.toU64 {x : Fp f} {k : ℤ} {n : ℕ} (hx : x.Holds k n) :
    x.toU64 = Min.min n (2 ^ 64 - 1) := by
  obtain ⟨m, e, rfl, -, -, -, hv⟩ := hx
  rw [← natAbs_exact m e] at hv
  show Min.min ((exact false m e).1.toNat / 2 ^ (exact false m e).2) (2 ^ 64 - 1) = _
  have hdiv : (exact false m e).1.natAbs = n * 2 ^ (exact false m e).2 := by
    rw [div_eq_iff (by positivity)] at hv
    exact_mod_cast hv
  rw [show (exact false m e).1.toNat = (exact false m e).1.natAbs from rfl, hdiv,
    Nat.mul_div_cancel _ (by positivity)]

end Fp

end Lib
