import Switchback.Adapters.Registry

/-!
# The recorded cost and its counts

A cost is computed in floating point from the cost map and in words from the catalog.  More tokens
should never cost less.
-/

namespace Switchback

namespace Registry

open Lib

variable {n n' micros : ℕ}

theorem ofNat_mono (h : n ≤ n') : (Fp.ofNat n : F64).rank ≤ (Fp.ofNat n' : F64).rank := by
  refine Fp.round_mono (by decide) Nat.one_pos Nat.one_pos ?_
  rw [Nat.cast_one, div_one, div_one]
  exact_mod_cast h

theorem floatAmount_mono (hn' : n' < 2 ^ 64) (hmicros : micros < 2 ^ 64) (h : n ≤ n') :
    (floatAmount micros n).rank ≤ (floatAmount micros n').rank := by
  obtain ⟨-, k, l, hprice, -⟩ := price_holds hmicros
  obtain ⟨-, m, e, hcount, -⟩ := count_holds (show n < 2 ^ 64 by omega)
  obtain ⟨-, m', e', hcount', -⟩ := count_holds hn'
  have hmono := ofNat_mono h
  rw [hcount, hcount'] at hmono
  rw [floatAmount, floatAmount, hprice, hcount, hcount']
  exact Fp.mul_mono (by decide) hmono

/-- **Floating-point amounts keep the order of the counts.** -/
theorem floatCost_mono {rates : Rates} (hin : rates.inputMicros < 2 ^ 64)
    (hout : rates.outputMicros < 2 ^ 64) {a a' b b' : ℕ} (ha' : a' < 2 ^ 64) (hb' : b' < 2 ^ 64)
    (ha : a ≤ a') (hb : b ≤ b') :
    floatCost rates.costProfile a b ≤ floatCost rates.costProfile a' b' := by
  have hx := (floatAmount_holds (show a < 2 ^ 64 by omega) hin).nonNeg
  have hx' := (floatAmount_holds ha' hin).nonNeg
  have hy := (floatAmount_holds (show b < 2 ^ 64 by omega) hout).nonNeg
  have hy' := (floatAmount_holds hb' hout).nonNeg
  have hsum := Fp.add_nonNeg hx hy
  have hsum' := Fp.add_nonNeg hx' hy'
  have hmono := Fp.add_mono (by decide) hx hx' hy hy' (floatAmount_mono ha' hin ha)
    (floatAmount_mono hb' hout hb)
  show Fp.toU64 (Fp.max (Fp.nearest (floatAmount rates.inputMicros a +
      floatAmount rates.outputMicros b)) Fp.zero) ≤
    Fp.toU64 (Fp.max (Fp.nearest (floatAmount rates.inputMicros a' +
      floatAmount rates.outputMicros b')) Fp.zero)
  rw [Fp.max_zero (Fp.nearest_nonNeg hsum), Fp.max_zero (Fp.nearest_nonNeg hsum')]
  exact Fp.toU64_mono (Fp.nearest_nonNeg hsum) (Fp.nearest_nonNeg hsum')
    (Fp.nearest_mono (by decide) hsum hsum' hmono)

/-! ### The cost of a usage -/

/-- No count of the first usage is larger. -/
structure UsageLe (u u' : Usage) : Prop where
  input : u.inputTokens ≤ u'.inputTokens
  output : u.outputTokens ≤ u'.outputTokens
  cachedInput : u.cachedInputTokens ≤ u'.cachedInputTokens
  reasoning : u.reasoningTokens ≤ u'.reasoningTokens

/-- The counts are words. -/
structure UsageWords (u : Usage) : Prop where
  input : u.inputTokens < 2 ^ 64
  output : u.outputTokens < 2 ^ 64
  cachedInput : u.cachedInputTokens < 2 ^ 64
  reasoning : u.reasoningTokens < 2 ^ 64

theorem satAdd_mono {a a' b b' : ℕ} (ha : a ≤ a') (hb : b ≤ b') :
    Word.satAdd a b ≤ Word.satAdd a' b' := by
  unfold Word.satAdd
  omega

theorem catalogCharge_mono (c : Catalog) (model : String) (kind : TokenKind)
    (h : n ≤ n') : catalogCharge c model kind n ≤ catalogCharge c model kind n' := by
  unfold catalogCharge
  cases c.currentPrice model kind with
  | none => exact le_rfl
  | some p =>
    refine Nat.div_le_div_right (min_le_min_right _ ?_)
    exact Nat.mul_le_mul_left _ h

/-- **The prices of the catalog keep the order of the counts.** -/
theorem catalogCost_mono (c : Catalog) (model : String) {u u' : Usage} (h : UsageLe u u') :
    catalogCost c model u ≤ catalogCost c model u' :=
  satAdd_mono
    (satAdd_mono
      (satAdd_mono (catalogCharge_mono c model .input h.input)
        (catalogCharge_mono c model .output h.output))
      (catalogCharge_mono c model .cachedInput h.cachedInput))
    (catalogCharge_mono c model .reasoning h.reasoning)

namespace AdapterRegistry

variable (r : AdapterRegistry) (providerId model : String)

/-- Every sum that a usage is put into saturates: its total, and where the cost map has a price the
two sums that are priced. -/
structure Saturates (u : Usage) : Prop where
  total : u.total = Word.satAdd u.inputTokens u.outputTokens
  priced : (r.tokenPrice providerId model).isSome = true →
    inputSum u = Word.satAdd u.inputTokens u.cachedInputTokens ∧
      outputSum u = Word.satAdd u.outputTokens u.reasoningTokens

/-- Two usages are summed without wrapping around, and the larger one costs no less. -/
structure CostLaw (u u' : Usage) : Prop where
  first : r.Saturates providerId model u
  second : r.Saturates providerId model u'
  mono : r.costMicros providerId model u ≤ r.costMicros providerId model u'

/-- A word holds every sum that a usage is put into. -/
structure SumsFit (u : Usage) : Prop where
  total : u.inputTokens + u.outputTokens < 2 ^ 64
  priced : (r.tokenPrice providerId model).isSome = true →
    u.inputTokens + u.cachedInputTokens < 2 ^ 64 ∧ u.outputTokens + u.reasoningTokens < 2 ^ 64

variable {r providerId model}

theorem mod_eq_satAdd_iff {a b : ℕ} (ha : a < 2 ^ 64) (hb : b < 2 ^ 64) :
    (a + b) % 2 ^ 64 = Word.satAdd a b ↔ a + b < 2 ^ 64 := by
  unfold Word.satAdd Word.u64Max
  omega

theorem saturates_iff {u : Usage} (h : UsageWords u) :
    r.Saturates providerId model u ↔ r.SumsFit providerId model u := by
  have htotal := mod_eq_satAdd_iff h.input h.output
  have hinput := mod_eq_satAdd_iff h.input h.cachedInput
  have houtput := mod_eq_satAdd_iff h.output h.reasoning
  constructor
  · intro hs
    exact ⟨htotal.1 hs.total,
      fun hprice => ⟨hinput.1 (hs.priced hprice).1, houtput.1 (hs.priced hprice).2⟩⟩
  · intro hs
    exact ⟨htotal.2 hs.total,
      fun hprice => ⟨hinput.2 (hs.priced hprice).1, houtput.2 (hs.priced hprice).2⟩⟩

theorem SumsFit.of_le {u u' : Usage} (h : r.SumsFit providerId model u') (hle : UsageLe u u') :
    r.SumsFit providerId model u := by
  obtain ⟨hinput, houtput, hcached, hreasoning⟩ := hle
  refine ⟨?_, fun hprice => ?_⟩
  · have := h.total
    omega
  · have := h.priced hprice
    exact ⟨by omega, by omega⟩

/-- **When more tokens cost no less.**  For two usages, one of them larger, the sums saturate and
the cost is monotone exactly when a word holds the sums of the larger one. -/
theorem cost_monotone_iff (hprices : r.WordPrices providerId model) {u u' : Usage}
    (hwords : UsageWords u') (hle : UsageLe u u') :
    r.CostLaw providerId model u u' ↔ r.SumsFit providerId model u' := by
  have hwords₀ : UsageWords u :=
    ⟨hle.input.trans_lt hwords.input, hle.output.trans_lt hwords.output,
      hle.cachedInput.trans_lt hwords.cachedInput, hle.reasoning.trans_lt hwords.reasoning⟩
  constructor
  · intro h
    exact (saturates_iff hwords).1 h.second
  · intro h
    refine ⟨(saturates_iff hwords₀).2 (h.of_le hle), (saturates_iff hwords).2 h, ?_⟩
    unfold costMicros
    cases htoken : r.tokenPrice providerId model with
    | none => exact catalogCost_mono r.catalog model hle
    | some cost =>
      obtain ⟨hin, hout⟩ := hprices cost htoken
      have hfit := h.priced (by rw [htoken]; rfl)
      have hfit₀ := (h.of_le hle).priced (by rw [htoken]; rfl)
      have hmod {n : ℕ} (hn : n < 2 ^ 64) : n % 2 ^ 64 = n := Nat.mod_eq_of_lt hn
      refine floatCost_mono hin hout (Nat.mod_lt _ (by norm_num)) (Nat.mod_lt _ (by norm_num)) ?_ ?_
      · rw [inputSum, inputSum, hmod hfit.1, hmod hfit₀.1]
        exact Nat.add_le_add hle.input hle.cachedInput
      · rw [outputSum, outputSum, hmod hfit.2, hmod hfit₀.2]
        exact Nat.add_le_add hle.output hle.reasoning

end AdapterRegistry

/-- A usage at the price of the cost map, and a larger one. -/
theorem cost_monotone_costMapped :
    (costMapped.WordPrices "anthropic" "claude" ∧ UsageWords ⟨2000, 500, 100, 0, none⟩ ∧
      UsageLe ⟨1000, 500, 0, 0, none⟩ ⟨2000, 500, 100, 0, none⟩) ∧
    (costMapped.CostLaw "anthropic" "claude" ⟨1000, 500, 0, 0, none⟩ ⟨2000, 500, 100, 0, none⟩ ↔
      costMapped.SumsFit "anthropic" "claude" ⟨2000, 500, 100, 0, none⟩) := by
  have hwords : UsageWords ⟨2000, 500, 100, 0, none⟩ := by constructor <;> decide
  have hle : UsageLe ⟨1000, 500, 0, 0, none⟩ ⟨2000, 500, 100, 0, none⟩ := by
    constructor <;> decide
  exact ⟨⟨wordPrices_costMapped, hwords, hle⟩, AdapterRegistry.cost_monotone_iff wordPrices_costMapped hwords hle⟩

/-- One cached token more makes the greatest count of input tokens free. -/
theorem greatest_count_free :
    ¬ ∀ (r : AdapterRegistry) (providerId model : String) (u u' : Usage),
      r.WordPrices providerId model → UsageWords u' → UsageLe u u' →
        r.CostLaw providerId model u u' := by
  intro h
  have hlaw := h costMapped "anthropic" "claude" ⟨2 ^ 64 - 1, 0, 0, 0, none⟩
    ⟨2 ^ 64 - 1, 0, 1, 0, none⟩
    wordPrices_costMapped
    (by constructor <;> decide) (by constructor <;> decide)
  have hmono := hlaw.mono
  unfold AdapterRegistry.costMicros at hmono
  rw [tokenPrice_costMapped] at hmono
  exact absurd hmono (by decide +kernel)

end Registry

end Switchback
