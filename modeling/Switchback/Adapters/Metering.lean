import Switchback.Adapters.Registry
import Switchback.Protocols.Gemini
import Switchback.Protocols.Responses

/-!
# The tokens that are charged

The registry adds up four counts of a usage.  The upstreams of two protocols report cached tokens
inside the input count, and reasoning tokens inside the output count; their parsers keep the counts
as they are reported.
-/

namespace Switchback

namespace Registry

open Lib

/-- The tokens that `cost_micros` puts a price on. -/
def pricedTokens (u : Usage) : ℕ :=
  u.inputTokens + u.cachedInputTokens + u.outputTokens + u.reasoningTokens

/-- The counts of a response as its upstream reports them. -/
structure TokenReport where
  prompt : ℕ
  cached : ℕ
  output : ℕ
  reasoning : ℕ
  total : ℕ

/-- Cached tokens are part of the prompt and reasoning tokens part of the output. -/
def TokenReport.Nested (t : TokenReport) : Prop :=
  t.cached ≤ t.prompt ∧ t.reasoning ≤ t.output ∧ t.total = t.prompt + t.output

instance (t : TokenReport) : Decidable t.Nested := by unfold TokenReport.Nested; infer_instance

/-- What the total counts besides the prompt and the output. -/
def TokenReport.beside (t : TokenReport) : ℤ := t.total - (t.prompt + t.output)

/-- The counts of a Responses usage object. -/
def responsesReport (usage : Json) : TokenReport where
  prompt := (usage.getU64 "input_tokens").getD 0
  cached := ((usage.pointer ["input_tokens_details", "cached_tokens"]).bind Json.asU64).getD 0
  output := (usage.getU64 "output_tokens").getD 0
  reasoning :=
    ((usage.pointer ["output_tokens_details", "reasoning_tokens"]).bind Json.asU64).getD 0
  total := (usage.getU64 "total_tokens").getD 0

/-- The counts of a Gemini `usageMetadata`, whose thoughts are counted beside its output. -/
def geminiReport (metadata : Json) : TokenReport where
  prompt := (metadata.getU64 "promptTokenCount").getD 0
  cached := (metadata.getU64 "cachedContentTokenCount").getD 0
  output := (metadata.getU64 "candidatesTokenCount").getD 0
  reasoning := (metadata.getU64 "thoughtsTokenCount").getD 0
  total := (metadata.getU64 "totalTokenCount").getD 0

/-- The priced tokens of a Responses usage are those of its report, each class on its own. -/
theorem pricedTokens_responses (usage : Json) (energy : Option Json) :
    pricedTokens (parseResponsesUsage (some usage) energy) =
      (responsesReport usage).prompt + (responsesReport usage).cached +
        (responsesReport usage).output + (responsesReport usage).reasoning := rfl

/-- Those of a Gemini `usageMetadata` leave its thoughts out. -/
theorem pricedTokens_gemini (metadata : Json) :
    pricedTokens (usageFromGemini (some metadata)) =
      (geminiReport metadata).prompt + (geminiReport metadata).cached +
        (geminiReport metadata).output := rfl

theorem TokenReport.Nested.sum_eq_total_iff {t : TokenReport} (h : t.Nested) :
    t.prompt + t.cached + t.output + t.reasoning = t.total ↔ t.cached = 0 ∧ t.reasoning = 0 := by
  obtain ⟨-, -, htotal⟩ := h
  omega

theorem TokenReport.sum_eq_total_iff (t : TokenReport) :
    t.prompt + t.cached + t.output = t.total ↔ t.beside = t.cached := by
  unfold TokenReport.beside
  omega

theorem TokenReport.beside_of_thoughts {t : TokenReport}
    (h : t.total = t.prompt + t.output + t.reasoning) : t.beside = t.reasoning := by
  unfold TokenReport.beside
  omega

/-- **Every token is charged once** exactly when the upstream reports no cached and no reasoning
tokens; a Gemini upstream can also make up for the cached tokens with as many thoughts. -/
theorem charged_once_iff (usage : Json) (energy : Option Json) (metadata : Json) :
    ((responsesReport usage).Nested →
      (pricedTokens (parseResponsesUsage (some usage) energy) = (responsesReport usage).total ↔
        (responsesReport usage).cached = 0 ∧ (responsesReport usage).reasoning = 0)) ∧
    ((geminiReport metadata).cached ≤ (geminiReport metadata).prompt →
      (pricedTokens (usageFromGemini (some metadata)) = (geminiReport metadata).total ↔
        (geminiReport metadata).beside = (geminiReport metadata).cached) ∧
      ((geminiReport metadata).total = (geminiReport metadata).prompt +
          (geminiReport metadata).output + (geminiReport metadata).reasoning →
        (pricedTokens (usageFromGemini (some metadata)) = (geminiReport metadata).total ↔
          (geminiReport metadata).reasoning = (geminiReport metadata).cached))) := by
  constructor
  · intro h
    rw [pricedTokens_responses]
    exact h.sum_eq_total_iff
  · intro _
    have hbeside := (geminiReport metadata).sum_eq_total_iff
    rw [pricedTokens_gemini]
    refine ⟨hbeside, fun htotal => ?_⟩
    rw [hbeside, TokenReport.beside_of_thoughts htotal]
    exact Nat.cast_inj

/-- A prompt of 1000 tokens, `cached` of them from the cache, and 50 tokens of output. -/
def cachedUsage (cached : ℕ) : Json :=
  Json.mkObj
    [("input_tokens", Json.ofNat 1000), ("output_tokens", Json.ofNat 50),
      ("total_tokens", Json.ofNat 1050),
      ("input_tokens_details", Json.mkObj [("cached_tokens", Json.ofNat cached)])]

/-- The same as a Gemini `usageMetadata`. -/
def promptMetadata (cached thoughts : ℕ) : Json :=
  Json.mkObj
    [("promptTokenCount", Json.ofNat 1000), ("candidatesTokenCount", Json.ofNat 50),
      ("cachedContentTokenCount", Json.ofNat cached), ("thoughtsTokenCount", Json.ofNat thoughts),
      ("totalTokenCount", Json.ofNat (1050 + thoughts))]

theorem charged_once_uncached :
    pricedTokens (parseResponsesUsage (some (cachedUsage 0)) none) =
        (responsesReport (cachedUsage 0)).total ∧
      pricedTokens (usageFromGemini (some (promptMetadata 0 0))) =
        (geminiReport (promptMetadata 0 0)).total ∧
      pricedTokens (usageFromGemini (some (promptMetadata 200 200))) =
        (geminiReport (promptMetadata 200 200)).total := by
  have huncached := charged_once_iff (cachedUsage 0) none (promptMetadata 0 0)
  have hmadeUp := charged_once_iff (cachedUsage 0) none (promptMetadata 200 200)
  exact ⟨(huncached.1 (by decide +kernel)).mpr (by decide +kernel),
    (huncached.2 (by decide +kernel)).1.mpr (by decide +kernel),
    ((hmadeUp.2 (by decide +kernel)).2 (by decide +kernel)).mpr (by decide +kernel)⟩

/-- Tokens from the cache are charged a second time, and the thoughts of a Gemini model not at
all. -/
theorem cached_charged_twice :
    (¬ ∀ (usage : Json) (energy : Option Json), (responsesReport usage).Nested →
      pricedTokens (parseResponsesUsage (some usage) energy) = (responsesReport usage).total) ∧
    ¬ ∀ metadata : Json, (geminiReport metadata).cached ≤ (geminiReport metadata).prompt →
      pricedTokens (usageFromGemini (some metadata)) = (geminiReport metadata).total := by
  constructor
  · intro hresponses
    have hnested : (responsesReport (cachedUsage 800)).Nested := by decide +kernel
    exact absurd (hresponses (cachedUsage 800) none hnested) (by decide +kernel)
  · intro hgemini
    exact absurd (hgemini (promptMetadata 0 200) (by decide +kernel)) (by decide +kernel)

end Registry

end Switchback
