import Switchback.Core.Target

/-!
# The knobs of the quality judge

`server.quality_eval` with its defaults, and the part of the configuration check that reads it.
-/

namespace Switchback

namespace Quality

open Lib

/-- `QualityEvalConfig` with the knobs of the judge. -/
structure EvalConfig extends QualityEvalConfig where
  judgeRoute : String := "auto/judge"
  bodyAllowedTargets : List String := []
  maxJudgmentsPer24h : ℕ := 60
  maxCostMicrosPer24h : ℕ := 500000
  minInputChars : ℕ := 32
  minOutputChars : ℕ := 64
  maxInputBytes : ℕ := 32768
  maxOutputBytes : ℕ := 32768
  captureSlots : ℕ := 8
  queueCapacity : ℕ := 8
  judgeTimeoutMs : ℕ := 60000
  judgeMaxOutputTokens : ℕ := 128
  failureBackoffAfter : ℕ := 3
  failureBackoffSecs : ℕ := 3600
  ewmaAlpha : F64 := Fp.ofDecimal 20 2

/-- The rest of a configuration that `semantic_problems` reads for this section: the scorecard
switch, whether there is a state store, the exact routes and the wildcard route with their targets,
and the combos with their models. -/
structure Surroundings where
  scorecardEnabled : Bool := true
  stateStore : Option String := none
  routes : List (Option String × List String) := []
  combos : List (String × List String) := []

namespace Surroundings

def exactRouteFor (s : Surroundings) (model : String) : Option (List String) :=
  (s.routes.find? fun r => r.1 == some model).map Prod.snd

def wildcardRoute (s : Surroundings) : Option (List String) := s.exactRouteFor "*"

def comboFor (s : Surroundings) (model : String) : Option (List String) :=
  (s.combos.find? fun c => c.1 == model).map Prod.snd

/-- The candidates of the judge route. -/
def judgeCandidates (s : Surroundings) (judgeRoute : String) : Option (List String) :=
  ((s.exactRouteFor judgeRoute).or s.wildcardRoute).or (s.comboFor judgeRoute)

end Surroundings

/-- One problem, if the check fails. -/
def problem (bad : Bool) (message : String) : List String := if bad then [message] else []

/-- The problems of one allowed target, given the targets before it. -/
def targetProblems (qe : EvalConfig) (s : Surroundings) (seen : List String) (i : ℕ)
    (target : String) : List String :=
  if (Text.trim target).isEmpty then
    [s!"server.quality_eval.body_allowed_targets[{i}] must not be empty"]
  else
    let directMatch := qe.judgeRoute == target && (Text.splitOnce "/" target).isSome
    problem (seen.contains target)
        s!"server.quality_eval.body_allowed_targets[{i}] duplicates `{target}`" ++
      problem (!directMatch && !(s.judgeCandidates qe.judgeRoute).any (·.contains target))
        (s!"server.quality_eval.body_allowed_targets[{i}] `{target}` is not a candidate of " ++
          s!"judge_route `{qe.judgeRoute}`")

def allTargetProblems (qe : EvalConfig) (s : Surroundings) :
    List String → ℕ → List String → List String
  | _, _, [] => []
  | seen, i, target :: targets =>
    targetProblems qe s seen i target ++ allTargetProblems qe s (seen ++ [target]) (i + 1) targets

/-- The quality section of `semantic_problems`. -/
def qualityProblems (qe : EvalConfig) (s : Surroundings) : List String :=
  if !qe.enabled then [] else
    problem (qe.maxJudgmentsPer24h == 0)
      "server.quality_eval.max_judgments_per_24h must be greater than 0" ++
    problem (qe.maxCostMicrosPer24h == 0)
      "server.quality_eval.max_cost_micros_per_24h must be greater than 0" ++
    problem (qe.minInputChars == 0 || qe.maxInputBytes < qe.minInputChars)
      "server.quality_eval.min_input_chars must be in 1..=max_input_bytes" ++
    problem (qe.minOutputChars == 0 || qe.maxOutputBytes < qe.minOutputChars)
      "server.quality_eval.min_output_chars must be in 1..=max_output_bytes" ++
    problem (qe.captureSlots == 0)
      "server.quality_eval.capture_slots must be greater than 0" ++
    problem (qe.queueCapacity == 0)
      "server.quality_eval.queue_capacity must be greater than 0" ++
    problem (qe.judgeTimeoutMs == 0)
      "server.quality_eval.judge_timeout_ms must be greater than 0" ++
    problem (qe.judgeMaxOutputTokens == 0)
      "server.quality_eval.judge_max_output_tokens must be greater than 0" ++
    problem (qe.failureBackoffAfter == 0)
      "server.quality_eval.failure_backoff_after must be greater than 0" ++
    problem (qe.failureBackoffSecs == 0)
      "server.quality_eval.failure_backoff_secs must be greater than 0" ++
    problem (!(qe.ewmaAlpha.isFinite && Fp.lt Fp.zero qe.ewmaAlpha &&
        Fp.le qe.ewmaAlpha (Fp.ofNat 1)))
      "server.quality_eval.ewma_alpha must be finite and in (0, 1]" ++
    problem (qe.routingMinSamples == 0)
      "server.quality_eval.routing_min_samples must be greater than 0" ++
    problem (qe.routingFullConfidenceSamples == 0 ||
        qe.routingFullConfidenceSamples < qe.routingMinSamples)
      "server.quality_eval.routing_full_confidence_samples must be >= routing_min_samples" ++
    problem (!qe.routingWeight.isFinite ||
        !(Fp.le Fp.zero qe.routingWeight && Fp.le qe.routingWeight (Fp.ofDecimal 10 2)))
      "server.quality_eval.routing_weight must be finite and in [0, 0.10]" ++
    problem (!s.scorecardEnabled)
      "server.quality_eval requires server.scorecard.enabled: true" ++
    problem s.stateStore.isNone "server.quality_eval requires server.state_store" ++
    problem (Text.trim qe.judgeRoute).isEmpty
      "server.quality_eval.judge_route must not be empty" ++
    problem qe.bodyAllowedTargets.isEmpty
      "server.quality_eval.body_allowed_targets must not be empty" ++
    allTargetProblems qe s [] 0 qe.bodyAllowedTargets

end Quality

end Switchback
