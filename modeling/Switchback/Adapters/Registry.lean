import Mathlib.Algebra.Order.Round
import Mathlib.Algebra.Order.Floor.Ring
import Mathlib.Data.Rat.Floor
import Mathlib.Tactic.NormNum
import Switchback.Lib.FloatRound
import Switchback.Server.Workloads

/-!
# Prices in the adapter registry

A model is priced by a row of the cost map or, where that has none, by the catalog.  Three lookups
read the two sources, each in its own way.

A price is the number of micro-dollars it is written with.  The price of the cost map and its amounts
are computed in floating point, those of the catalog in words.
-/

namespace Switchback

namespace Registry

open Lib
open Workloads (PricingUnit UnitPrice)

/-! ### The catalog -/

inductive TokenKind where
  | input
  | output
  | cachedInput
  | reasoning
  deriving DecidableEq

structure Price where
  modelId : String
  tokenKind : TokenKind
  unitPriceMicrosPerMtok : ℕ
  effectiveFrom : String
  effectiveTo : Option String

inductive Modality where
  | textIn
  | textOut
  | visionIn
  | audioIn
  | imageOut
  | embeddings
  deriving DecidableEq

structure Model where
  id : String
  providerId : String
  contextWindow : Option ℕ := none
  modalities : List Modality := []
  capabilities : CapabilityProfile := {}
  tags : List String := []

/-- The context window and the modalities of a row are laid over its capabilities. -/
def Model.capabilityProfile (m : Model) : CapabilityProfile :=
  let caps := m.contextWindow.elim m.capabilities fun context =>
    { m.capabilities with maxContextTokens := some context }
  if m.modalities.isEmpty then caps
  else { caps with visionIn := m.modalities.contains .visionIn }

structure Catalog where
  models : List Model := []
  prices : List Price := []

/-- The greatest by `effective_from`, the last one among equals. -/
def latest (best : Option Price) (p : Price) : Option Price :=
  match best with
  | none => some p
  | some b => if p.effectiveFrom < b.effectiveFrom then some b else some p

/-- The latest price without an end; the provider does not matter. -/
def Catalog.currentPrice (c : Catalog) (modelId : String) (kind : TokenKind) : Option Price :=
  (c.prices.filter fun p =>
    p.modelId = modelId && p.tokenKind = kind && p.effectiveTo.isNone).foldl latest none

/-! ### The cost map -/

/-- A price of input and of output tokens, in micro-dollars for a million tokens. -/
structure Rates where
  inputMicros : ℕ
  outputMicros : ℕ
  deriving DecidableEq

namespace Rates

/-- Dollars for a million tokens, which are micro-dollars for one. -/
def usd (micros : ℕ) : ℚ := micros / 1000000

def input (r : Rates) : ℚ := usd r.inputMicros

def output (r : Rates) : ℚ := usd r.outputMicros

/-- The price as it is stamped on a target. -/
def costProfile (r : Rates) : CostProfile where
  inputPerMtok := Fp.ofNat r.inputMicros / Fp.ofNat 1000000
  outputPerMtok := Fp.ofNat r.outputMicros / Fp.ofNat 1000000

end Rates

structure CostEntry where
  cost : Option Rates
  unitPrice : Option UnitPrice
  tags : List String

def costKey (providerId model : String) : String := providerId ++ "/" ++ model

/-! ### The registry -/

/-- What the registry keeps of an adapter: its kind and what it reports it can do. -/
structure ProviderEntry where
  kind : ExecutionTargetKind
  capabilities : String → CapabilityProfile

/-- The registry; the latency tracker is the two averages it answers with. -/
structure AdapterRegistry where
  providers : OrdMap String ProviderEntry := OrdMap.empty
  catalog : Catalog := {}
  costIndex : OrdMap String CostEntry := OrdMap.empty
  latency : String → String → Option F64 := fun _ _ => none
  ttft : String → String → Option F64 := fun _ _ => none

/-- The branch of `cost_micros` for a price of the cost map, from its two sums. -/
def floatCost (cost : CostProfile) (input output : ℕ) : ℕ :=
  Fp.toU64 (Fp.max
    (Fp.nearest (Fp.ofNat input * cost.inputPerMtok + Fp.ofNat output * cost.outputPerMtok))
    Fp.zero)

/-- A price of the catalog times a count, cut to whole micro-dollars. -/
def catalogCharge (c : Catalog) (model : String) (kind : TokenKind) (tokens : ℕ) : ℕ :=
  (c.currentPrice model kind).elim 0 fun p =>
    min (p.unitPriceMicrosPerMtok * tokens) Word.u64Max / 1000000

/-- The cost at the prices of the catalog. -/
def catalogCost (c : Catalog) (model : String) (usage : Usage) : ℕ :=
  let per := catalogCharge c model
  Word.satAdd (Word.satAdd (Word.satAdd (per .input usage.inputTokens)
    (per .output usage.outputTokens)) (per .cachedInput usage.cachedInputTokens))
    (per .reasoning usage.reasoningTokens)

/-- The plain sum of the tokens that go at the input price. -/
def inputSum (usage : Usage) : ℕ := (usage.inputTokens + usage.cachedInputTokens) % 2 ^ 64

/-- The plain sum of the tokens that go at the output price. -/
def outputSum (usage : Usage) : ℕ := (usage.outputTokens + usage.reasoningTokens) % 2 ^ 64

namespace AdapterRegistry

variable (r : AdapterRegistry)

def costEntry (providerId model : String) : Option CostEntry :=
  r.costIndex.get (costKey providerId model)

/-- The token price of the cost map. -/
def tokenPrice (providerId model : String) : Option Rates :=
  (r.costEntry providerId model).bind CostEntry.cost

/-- The recorded cost: cached tokens go at the input price of the cost map and reasoning tokens at
its output price; the catalog has a price of each kind. -/
def costMicros (providerId model : String) (usage : Usage) : ℕ :=
  match r.tokenPrice providerId model with
  | some cost => floatCost cost.costProfile (inputSum usage) (outputSum usage)
  | none => catalogCost r.catalog model usage

/-- The token price of the cost map is two words. -/
def WordPrices (providerId model : String) : Prop :=
  ∀ cost, r.tokenPrice providerId model = some cost →
    cost.inputMicros < 2 ^ 64 ∧ cost.outputMicros < 2 ^ 64

/-- The price of a target: any row of the cost map decides, and the catalog has to have the model
of the provider with both prices. -/
def costProfile (providerId model : String) : Option Rates :=
  match r.costEntry providerId model with
  | some entry => entry.cost
  | none => do
      if ¬ r.catalog.models.any fun m => m.providerId = providerId && m.id = model then none
      let input ← r.catalog.currentPrice model .input
      let output ← r.catalog.currentPrice model .output
      return ⟨input.unitPriceMicrosPerMtok, output.unitPriceMicrosPerMtok⟩

/-- A target for routing, with the price of the cost map. -/
def targetForProviderModel (providerId model : String) : Option ExecutionTarget :=
  (r.providers.get providerId).map fun entry =>
    let catalogModel := r.catalog.models.find? fun m => m.id = model && m.providerId = providerId
    { id := costKey providerId model
      kind := entry.kind
      providerId := providerId
      model := model
      capabilities := catalogModel.elim (entry.capabilities model) Model.capabilityProfile
      cost := (r.tokenPrice providerId model).map Rates.costProfile
      latencyEwmaMs := r.latency providerId model
      ttftEwmaMs := r.ttft providerId model
      policyTags := (r.costEntry providerId model).elim [] CostEntry.tags
      taskTags := catalogModel.elim [] Model.tags }

/-- `cost_micros` finds a price for some kind of token. -/
def Charges (providerId model : String) : Prop :=
  (r.tokenPrice providerId model).isSome ∨
    ∃ kind, (r.catalog.currentPrice model kind).isSome

/-- The three lookups are one: priced together, at one price, and `n` tokens are recorded at the
price times `n`, rounded to the micro-dollar. -/
structure PricesAgree (providerId model : String) (target : ExecutionTarget) (n : ℕ) : Prop where
  routed : target.cost = (r.costProfile providerId model).map Rates.costProfile
  recorded : r.Charges providerId model ↔ (r.costProfile providerId model).isSome
  amounts : ∀ cost, r.costProfile providerId model = some cost →
    (r.costMicros providerId model { inputTokens := n } : ℤ) = round (n * cost.input) ∧
    (r.costMicros providerId model { outputTokens := n } : ℤ) = round (n * cost.output)

end AdapterRegistry

/-! ### Amounts in floating point -/

/-- `n` tokens at a price, as the product of two doubles. -/
def floatAmount (micros n : ℕ) : F64 := Fp.ofNat n * (Fp.ofNat micros / Fp.ofNat 1000000)

/-- A word holds the exact amount, and no half of a micro-dollar lies between it and its double. -/
structure RoundsAlike (micros n : ℕ) : Prop where
  fits : round (n * Rates.usd micros) ≤ (Word.u64Max : ℤ)
  sameSide : ∀ k : ℕ, k < Word.u64Max →
    ((k : ℚ) + 1 / 2 ≤ n * Rates.usd micros ↔ (k : ℚ) + 1 / 2 ≤ (floatAmount micros n).toRat)

variable {n micros : ℕ}

/-- A count of a word is a finite datum. -/
theorem count_holds (h : n < 2 ^ 64) : ∃ v, (Fp.ofNat n : F64).Holds (13 : ℕ) v :=
  Fp.exists_round_holds (f := binary64) (k := 64) (by decide) Nat.one_pos (by omega) (by decide)
    (by decide)

theorem price_holds (h : micros < 2 ^ 64) :
    ∃ v, (Fp.ofNat micros / Fp.ofNat 1000000 : F64).Holds (15 : ℕ) v := by
  obtain ⟨v, hv⟩ := count_holds h
  have hle := hv.le
  obtain ⟨m, e, hm, -, -, -, rfl⟩ := hv
  have hmillion : (Fp.ofNat 1000000 : F64) = .fin false 8589934592000000 (-33) := by decide +kernel
  obtain ⟨num, den, hd, hdiv, hval⟩ :=
    @Fp.div_fin binary64 m 8589934592000000 (by norm_num) e (-33)
  rw [hm, hmillion, hdiv]
  refine Fp.exists_round_holds (f := binary64) (k := 66) (by decide) hd ?_ (by decide) (by decide)
  have hq : (num : ℚ) / den ≤ 2 ^ 66 := by
    rw [hval]
    exact (div_le_self (by positivity) (by norm_num)).trans hle
  rw [div_le_iff₀ (by exact_mod_cast hd)] at hq
  exact_mod_cast hq

/-- The amount of `n` tokens is a finite datum. -/
theorem floatAmount_holds (hn : n < 2 ^ 64) (hmicros : micros < 2 ^ 64) :
    (floatAmount micros n).Holds (83 : ℕ) (floatAmount micros n).toRat := by
  obtain ⟨v, hv⟩ := count_holds hn
  obtain ⟨w, hw⟩ := price_holds hmicros
  obtain ⟨u, hu⟩ := hv.mul (by decide) hw (by decide) (by decide)
  rw [show (floatAmount micros n).toRat = u from hu.toRat]
  exact hu

theorem floatAmount_zero (hmicros : micros < 2 ^ 64) : (floatAmount micros 0).Holds (-1074) 0 := by
  obtain ⟨w, hw⟩ := price_holds hmicros
  have hzero : (Fp.ofNat 0 : F64).Holds 0 0 :=
    ⟨0, -1074, rfl, Nat.zero_le _, le_rfl, by decide, by simp⟩
  exact hzero.mul_of_zero hw

theorem toU64_of_holds {x : F64} {v : ℚ} (h : x.Holds (85 : ℕ) v) :
    Fp.toU64 (Fp.max (Fp.nearest x) Fp.zero) = min ⌊v + 1 / 2⌋₊ Word.u64Max := by
  have hnearest := h.nearest (by decide) (by decide) (by decide) (by decide)
  rw [Fp.max_zero hnearest.nonNeg, hnearest.toU64]
  rfl

theorem floatCost_input {rates : Rates} (hin : rates.inputMicros < 2 ^ 64)
    (hout : rates.outputMicros < 2 ^ 64) (hn : n < 2 ^ 64) :
    floatCost rates.costProfile n 0 =
      min ⌊(floatAmount rates.inputMicros n).toRat + 1 / 2⌋₊ Word.u64Max :=
  toU64_of_holds ((floatAmount_holds hn hin).add_of_zero (by decide) (floatAmount_zero hout)
    (by decide))

theorem floatCost_output {rates : Rates} (hin : rates.inputMicros < 2 ^ 64)
    (hout : rates.outputMicros < 2 ^ 64) (hn : n < 2 ^ 64) :
    floatCost rates.costProfile 0 n =
      min ⌊(floatAmount rates.outputMicros n).toRat + 1 / 2⌋₊ Word.u64Max :=
  toU64_of_holds ((floatAmount_zero hin).of_zero_add (by decide) (floatAmount_holds hn hout)
    (by decide))

theorem cut_eq_round_iff {x v : ℚ} (hx : 0 ≤ x) (hv : 0 ≤ v) (top : ℕ) :
    ((min ⌊v + 1 / 2⌋₊ top : ℕ) : ℤ) = round x ↔
      round x ≤ (top : ℤ) ∧ ∀ k : ℕ, k < top → ((k : ℚ) + 1 / 2 ≤ x ↔ (k : ℚ) + 1 / 2 ≤ v) := by
  have hround : round x = (⌊x + 1 / 2⌋₊ : ℤ) := by
    rw [round_eq, Int.natCast_floor_eq_floor (by linarith)]
  have hside {y : ℚ} (hy : 0 ≤ y) (k : ℕ) : (k : ℚ) + 1 / 2 ≤ y ↔ k < ⌊y + 1 / 2⌋₊ := by
    rw [Nat.lt_iff_add_one_le, Nat.le_floor_iff (by linarith), Nat.cast_add_one]
    constructor <;> intro h <;> linarith
  simp only [hside hx, hside hv, hround]
  generalize ⌊x + 1 / 2⌋₊ = a
  generalize ⌊v + 1 / 2⌋₊ = b
  constructor
  · intro h
    exact ⟨by omega, fun k hk => by omega⟩
  · rintro ⟨hle, hall⟩
    have ha := hall a
    have hb := hall b
    omega

theorem Rates.usd_nonneg (micros : ℕ) : 0 ≤ Rates.usd micros := by
  unfold Rates.usd
  positivity

/-- **An amount in floating point** is the exact one, rounded, when the two round alike. -/
theorem amount_eq_iff (hn : n < 2 ^ 64) (hmicros : micros < 2 ^ 64) :
    ((min ⌊(floatAmount micros n).toRat + 1 / 2⌋₊ Word.u64Max : ℕ) : ℤ) =
      round (n * Rates.usd micros) ↔ RoundsAlike micros n := by
  rw [cut_eq_round_iff (mul_nonneg n.cast_nonneg (Rates.usd_nonneg micros))
    (floatAmount_holds hn hmicros).nonneg]
  exact ⟨fun h => ⟨h.1, h.2⟩, fun h => ⟨h.fits, h.sameSide⟩⟩

/-- **Whole dollars round alike**: a price of whole micro-dollars for a token, and an amount that a
double holds. -/
theorem roundsAlike_whole {d : ℕ} (hd : 1000000 * d ≤ 2 ^ 53) (hn : n ≤ 2 ^ 53)
    (hle : n * d ≤ 2 ^ 53) : RoundsAlike (1000000 * d) n := by
  have husd : Rates.usd (1000000 * d) = d := by
    unfold Rates.usd
    push_cast
    field_simp
  have hcount : (Fp.ofNat n : F64).Holds 2 n :=
    Fp.ofNat_holds (by decide) hn (by decide) le_rfl (by decide)
  have hmicros : (Fp.ofNat (1000000 * d) : F64).Holds 2 (1000000 * d : ℕ) :=
    Fp.ofNat_holds (by decide) hd (by decide) le_rfl (by decide)
  have hmillion : (Fp.ofNat 1000000 : F64) = .fin false 8589934592000000 (-33) := by decide +kernel
  have hprice : (Fp.ofNat (1000000 * d) / Fp.ofNat 1000000 : F64).Holds 2 d := by
    obtain ⟨m, e, hm, -, -, -, hv⟩ := hmicros
    obtain ⟨num, den, hpos, hdiv, hval⟩ :=
      @Fp.div_fin binary64 m 8589934592000000 (by norm_num) e (-33)
    have h := Fp.round_self (f := binary64) (m := d) (e := 0) (k := 2) (by decide) hpos
      (show d ≤ 2 ^ 53 by omega) (by decide) (by decide) (by decide)
      (by rw [hval, hv]; push_cast; norm_num)
    rw [hm, hmillion, hdiv]
    simpa using h
  have hvalue : (floatAmount (1000000 * d) n).toRat = n * d := by
    obtain ⟨m, e, hm, -, -, -, hv⟩ := hcount
    obtain ⟨m', e', hm', -, -, -, hv'⟩ := hprice
    obtain ⟨num, den, hpos, hmul, hval⟩ := @Fp.mul_fin binary64 m m' e e'
    have h := Fp.round_self (f := binary64) (m := n * d) (e := 0) (k := 2) (by decide) hpos
      hle (by decide) (by decide) (by decide) (by rw [hval, hv, hv']; push_cast; simp)
    unfold floatAmount
    rw [hm, hm', hmul, h.toRat]
    push_cast
    simp
  constructor
  · rw [husd, ← Nat.cast_mul, round_natCast]
    unfold Word.u64Max
    omega
  · intro k _
    rw [husd, hvalue]

/-! ### One price -/

namespace AdapterRegistry

variable {r : AdapterRegistry} {providerId model : String}

theorem costProfile_of_tokenPrice {cost : Rates}
    (h : r.tokenPrice providerId model = some cost) :
    r.costProfile providerId model = some cost := by
  obtain ⟨entry, hentry, hcost⟩ := Option.bind_eq_some_iff.mp h
  unfold costProfile
  rw [hentry]
  exact hcost

theorem costProfile_of_no_price (h : r.tokenPrice providerId model = none)
    (hcatalog : ∀ kind, r.catalog.currentPrice model kind = none) :
    r.costProfile providerId model = none := by
  unfold costProfile
  cases hentry : r.costEntry providerId model with
  | some entry =>
    unfold tokenPrice at h
    rwa [hentry] at h
  | none =>
    dsimp only
    split
    · rfl
    · rw [hcatalog .input]
      rfl

theorem costMicros_of_tokenPrice {cost : Rates} (h : r.tokenPrice providerId model = some cost)
    (usage : Usage) :
    r.costMicros providerId model usage =
      floatCost cost.costProfile (inputSum usage) (outputSum usage) := by
  unfold costMicros
  rw [h]

/-- What is charged for `n` tokens at a price of the cost map is right when the amounts round
alike. -/
theorem amounts_iff {cost : Rates} (h : r.tokenPrice providerId model = some cost)
    (hprices : r.WordPrices providerId model) (hn : n < 2 ^ 64) :
    ((r.costMicros providerId model { inputTokens := n } : ℤ) = round (n * cost.input) ∧
      (r.costMicros providerId model { outputTokens := n } : ℤ) = round (n * cost.output)) ↔
    RoundsAlike cost.inputMicros n ∧ RoundsAlike cost.outputMicros n := by
  obtain ⟨hin, hout⟩ := hprices cost h
  have hzero : (0 + 0) % 2 ^ 64 = 0 := rfl
  rw [costMicros_of_tokenPrice h, costMicros_of_tokenPrice h]
  dsimp only [inputSum, outputSum]
  rw [hzero, Nat.add_zero, Nat.mod_eq_of_lt hn, floatCost_input hin hout hn,
    floatCost_output hin hout hn]
  exact and_congr (amount_eq_iff hn hin) (amount_eq_iff hn hout)

theorem cost_of_targetForProviderModel {target : ExecutionTarget}
    (h : r.targetForProviderModel providerId model = some target) :
    target.cost = (r.tokenPrice providerId model).map Rates.costProfile := by
  obtain ⟨entry, -, rfl⟩ := Option.map_eq_some_iff.mp h
  rfl

/-- **The routing price and the recorded price are one** exactly when the cost map has a token price
for the model of the provider at which the two amounts round alike, or neither source has a price
for the model. -/
theorem prices_agree_iff (r : AdapterRegistry) (providerId model : String)
    (target : ExecutionTarget) (h : r.targetForProviderModel providerId model = some target)
    (hprices : r.WordPrices providerId model) (n : ℕ) (hn : n < 2 ^ 64) :
    r.PricesAgree providerId model target n ↔
      (∃ cost, r.tokenPrice providerId model = some cost ∧
        RoundsAlike cost.inputMicros n ∧ RoundsAlike cost.outputMicros n) ∨
      (r.tokenPrice providerId model = none ∧
        ∀ kind, r.catalog.currentPrice model kind = none) := by
  have hcost := cost_of_targetForProviderModel h
  cases htoken : r.tokenPrice providerId model with
  | some cost =>
    have hprofile := costProfile_of_tokenPrice htoken
    constructor
    · intro hagree
      exact .inl ⟨cost, rfl, (amounts_iff htoken hprices hn).mp (hagree.amounts cost hprofile)⟩
    · rintro (⟨cost', hcost', halike⟩ | ⟨hnone, -⟩)
      · obtain rfl := Option.some.inj hcost'
        refine ⟨by rw [hcost, htoken, hprofile], ?_, fun cost' hcost' => ?_⟩
        · rw [hprofile]
          exact ⟨fun _ => rfl, fun _ => .inl (by rw [htoken]; rfl)⟩
        · obtain rfl := Option.some.inj (hprofile.symm.trans hcost')
          exact (amounts_iff htoken hprices hn).mpr halike
      · cases hnone
  | none =>
    rw [htoken] at hcost
    constructor
    · intro hagree
      refine .inr ⟨rfl, fun kind => ?_⟩
      by_contra hprice
      -- a price of the catalog is charged, and no target is stamped with it
      have hcharges : r.Charges providerId model :=
        .inr ⟨kind, Option.isSome_iff_ne_none.mpr hprice⟩
      obtain ⟨cost, hprofile⟩ := Option.isSome_iff_exists.mp (hagree.recorded.mp hcharges)
      have hrouted := hagree.routed
      rw [hcost, hprofile] at hrouted
      cases hrouted
    · rintro (⟨cost, hsome, -⟩ | ⟨-, hcatalog⟩)
      · cases hsome
      · have hprofile := costProfile_of_no_price htoken hcatalog
        refine ⟨by rw [hcost, hprofile], ?_, ?_⟩
        · rw [hprofile]
          constructor
          · rintro (hsome | ⟨kind, hsome⟩)
            · rw [htoken] at hsome
              cases hsome
            · rw [hcatalog kind] at hsome
              cases hsome
          · exact nofun
        · intro cost hsome
          rw [hprofile] at hsome
          cases hsome

end AdapterRegistry

/-! ### A model of the catalog -/

/-- The prices of one model, in the catalog alone. -/
def catalogOnly : AdapterRegistry where
  providers := OrdMap.ofList [("anthropic", ⟨.modelApi, fun _ => {}⟩)]
  catalog :=
    { models := [{ id := "claude", providerId := "anthropic" }]
      prices :=
        [⟨"claude", .input, 2500000, "2026-01-01T00:00:00Z", none⟩,
          ⟨"claude", .output, 10000000, "2026-01-01T00:00:00Z", none⟩] }

/-- The same model with a row of the cost map. -/
def costMapped : AdapterRegistry :=
  { catalogOnly with
    costIndex := OrdMap.ofList [("anthropic/claude", ⟨some ⟨3000000, 15000000⟩, none, []⟩)] }

def claudeTarget (cost : Option CostProfile) : ExecutionTarget where
  id := "anthropic/claude"
  providerId := "anthropic"
  model := "claude"
  cost := cost

theorem tokenPrice_costMapped :
    costMapped.tokenPrice "anthropic" "claude" = some ⟨3000000, 15000000⟩ := by
  decide +kernel

theorem wordPrices_costMapped : costMapped.WordPrices "anthropic" "claude" := by
  intro cost hcost
  rw [tokenPrice_costMapped] at hcost
  cases hcost
  decide

/-- With a row of the cost map there is one price, and a thousand tokens cost it a thousand times. -/
theorem prices_agree_costMapped :
    costMapped.PricesAgree "anthropic" "claude"
      (claudeTarget (some (Rates.costProfile ⟨3000000, 15000000⟩))) 1000 :=
  (AdapterRegistry.prices_agree_iff costMapped "anthropic" "claude" _ (by decide +kernel)
    wordPrices_costMapped 1000 (by norm_num)).mpr
    (.inl ⟨_, tokenPrice_costMapped,
      roundsAlike_whole (d := 3) (by norm_num) (by norm_num) (by norm_num),
      roundsAlike_whole (d := 15) (by norm_num) (by norm_num) (by norm_num)⟩)

/-- A price of the catalog alone is recorded, and the router sees none. -/
theorem catalog_price_not_routed :
    ¬ ∀ (r : AdapterRegistry) (providerId model : String) (target : ExecutionTarget),
      r.targetForProviderModel providerId model = some target →
      r.WordPrices providerId model → ∀ n : ℕ, n < 2 ^ 64 →
        r.PricesAgree providerId model target n := by
  intro hall
  have htarget : catalogOnly.targetForProviderModel "anthropic" "claude" =
      some (claudeTarget none) := by decide +kernel
  have hprofile : catalogOnly.costProfile "anthropic" "claude" = some ⟨2500000, 10000000⟩ := by
    decide +kernel
  have hwords : catalogOnly.WordPrices "anthropic" "claude" := fun cost hcost => by
    have hnone : catalogOnly.tokenPrice "anthropic" "claude" = none := by decide +kernel
    rw [hnone] at hcost
    cases hcost
  have hrouted := (hall catalogOnly "anthropic" "claude" _ htarget hwords 1 (by norm_num)).routed
  rw [hprofile] at hrouted
  cases hrouted

end Registry

end Switchback
