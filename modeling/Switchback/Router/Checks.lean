import Switchback.Core.Target

/-!
# The hard filter of the router

Planning first reads off the request and the route what a target must be able to do (`Needs`),
and then puts every candidate through an ordered list of checks.  The first check that fails is
the reason of the rejection.  Three of the checks are about images; a relaxed pass skips them.
-/

namespace Switchback

open Lib

namespace Router

/-- What one request on one route requires of a target. -/
structure Needs where
  streaming : Bool
  tools : Bool
  serverTools : Bool
  serverToolProtocols : List ServerToolProtocol
  vision : Bool
  audio : Bool
  file : Bool
  imageOut : Bool
  reasoning : Bool
  imageSources : List ImageSourceKind
  jsonSchema : Bool

/-- The requirements of `req` and `require` together. -/
def Needs.of (req : AiRequest) (require : RouteRequire) : Needs where
  streaming := require.streaming == some true || req.stream
  tools := require.toolCalling == some true || req.requiresTools
  serverTools := require.serverTools == some true || req.requiresServerTools
  serverToolProtocols := ServerToolProtocol.all.filter fun p =>
    req.requiredServerToolProtocols.contains p || require.serverToolProtocols.contains p
  vision := require.visionIn == some true || !require.visionSources.isEmpty || req.requiresVision
  audio := require.audioIn == some true
  file := require.fileIn == some true
  imageOut := require.imageOut == some true
  reasoning := require.reasoningSummary == some true
  imageSources := ImageSourceKind.all.filter fun k =>
    req.requiredImageSources.contains k || require.visionSources.contains k
  jsonSchema := require.jsonSchema == some true ||
    match req.responseFormat with
    | some (.jsonSchema ..) => true
    | _ => false

/-- The lane of a candidate that the policy disallows. -/
def blockedLane (target : ExecutionTarget) (policy : RoutingPolicy) : Option String :=
  if !policy.allowFree && target.policyTags.contains "free" then some "free"
  else if !policy.allowPromo && target.policyTags.contains "promo" then some "promo"
  else if !policy.allowAggregator && target.policyTags.contains "aggregator" then
    some "aggregator"
  else none

/-- The owner of the first provider file reference that the candidate cannot resolve. -/
def providerFileRefScopeMismatch (req : AiRequest) (candidate : ExecutionTarget) :
    Option String :=
  req.parts.findSome? fun
    | .image (.providerFileRef (some provider) _) _ =>
        if provider ≠ candidate.providerId then some provider else none
    | _ => none

/-! ### The checks -/

/-- A check returns the reason of the rejection. -/
abbrev Check := ExecutionTarget → Option String

/-- A capability that is required and missing. -/
def requireCapability (needed : Bool) (has : CapabilityProfile → Bool) (reason : String) :
    Check := fun c => if needed && !has c.capabilities then some reason else none

def serverToolProtocolCheck (needs : Needs) : Check := fun c =>
  if needs.serverTools then
    (needs.serverToolProtocols.find? fun p => !c.capabilities.supportsServerToolProtocol p).map
      fun p => "server tool protocol " ++ p.asStr ++ " required but target does not support it"
  else none

def imageSourceCheck (needs : Needs) : Check := fun c =>
  if needs.vision then
    (needs.imageSources.find? fun k => !c.capabilities.supportsImageSource k).map
      fun k => "image source " ++ k.asStr ++ " required but target does not support it"
  else none

def fileRefScopeCheck (needs : Needs) (req : AiRequest) : Check := fun c =>
  if needs.vision then
    (providerFileRefScopeMismatch req c).map fun owner =>
      "provider file image ref belongs to `" ++ owner ++ "` but target provider is `" ++
        c.providerId ++ "`"
  else none

def contextCheck (require : RouteRequire) (policy : RoutingPolicy) : Check := fun c =>
  match require.minContextTokens with
  | none => none
  | some required =>
      match c.capabilities.maxContextTokens with
      | some maxContext =>
          if maxContext < required then
            some ("context window " ++ toString maxContext ++ " < required " ++ toString required)
          else none
      | none =>
          if policy.unknownContext = .reject then
            some ("context window unknown for required " ++ toString required)
          else none

def healthCheck : Check := fun c =>
  if c.health = .down then some "target health is down" else none

def laneCheck (policy : RoutingPolicy) : Check := fun c =>
  (blockedLane c policy).map fun lane => "policy: `" ++ lane ++ "` lane not allowed"

def priceCheck (policy : RoutingPolicy) : Check := fun c =>
  match policy.maxPricePerMtok with
  | some maxPrice =>
      match c.cost with
      | some cost =>
          if Fp.lt maxPrice cost.blendedPerMtok then
            some ("blended price " ++ cost.blendedPerMtok.toFixed 2 ++ "/Mtok > max " ++
              maxPrice.toFixed 2 ++ "/Mtok")
          else none
      | none =>
          if policy.unknownCost = .reject then
            some ("price unknown for max " ++ maxPrice.toFixed 2 ++ "/Mtok policy")
          else none
  | none =>
      if policy.unknownCost = .reject ∧ c.cost.isNone then
        some "price unknown and policy rejects unknown cost"
      else none

/-- The checks in order; the flag marks those about images. -/
def hardChecks (req : AiRequest) (require : RouteRequire) (policy : RoutingPolicy) :
    List (Bool × Check) :=
  let needs := Needs.of req require
  [(false, requireCapability needs.streaming CapabilityProfile.streaming
      "streaming required but target does not support it"),
    (false, requireCapability needs.tools CapabilityProfile.toolCalling
      "tool calling required but target does not support it"),
    (false, requireCapability needs.serverTools CapabilityProfile.serverTools
      "server tools required but target does not support them"),
    (false, serverToolProtocolCheck needs),
    (true, requireCapability needs.vision CapabilityProfile.visionIn
      "vision input required but target does not support it"),
    (false, requireCapability needs.audio CapabilityProfile.audioIn
      "audio input required but target does not support it"),
    (false, requireCapability needs.file CapabilityProfile.fileIn
      "file input required but target does not support it"),
    (false, requireCapability needs.imageOut CapabilityProfile.imageOut
      "image output required but target does not support it"),
    (false, requireCapability needs.reasoning CapabilityProfile.reasoningSummary
      "reasoning summary required but target does not support it"),
    (true, imageSourceCheck needs),
    (true, fileRefScopeCheck needs req),
    (false, requireCapability needs.jsonSchema CapabilityProfile.jsonSchema
      "structured output (json_schema) required but target does not support it"),
    (false, contextCheck require policy),
    (false, healthCheck),
    (false, laneCheck policy),
    (false, priceCheck policy)]

/-- The first failing check of a candidate: whether it is about images, and its reason.  With
`relaxVision` the checks about images are skipped. -/
def firstFailure (checks : List (Bool × Check)) (relaxVision : Bool) (c : ExecutionTarget) :
    Option (Bool × String) :=
  checks.findSome? fun k => if k.1 && relaxVision then none else (k.2 c).map fun r => (k.1, r)

/-- The rejection of a candidate by the hard filter. -/
def rejection (req : AiRequest) (require : RouteRequire) (policy : RoutingPolicy)
    (relaxVision : Bool) (c : ExecutionTarget) : Option (Bool × String) :=
  firstFailure (hardChecks req require policy) relaxVision c

/-! ### What the checks ask -/

section FirstFailure

variable {checks : List (Bool × Check)} {c : ExecutionTarget}

theorem firstFailure_relaxed_eq_none :
    firstFailure checks true c = none ↔ ∀ k ∈ checks, k.1 = false → k.2 c = none := by
  simp only [firstFailure, List.findSome?_eq_none_iff]
  refine forall₂_congr fun k _ => ?_
  cases k.1 <;> simp

theorem firstFailure_strict_eq_none :
    firstFailure checks false c = none ↔ ∀ k ∈ checks, k.2 c = none := by
  simp [firstFailure, List.findSome?_eq_none_iff]

/-- A candidate that passes the checks of one kind is stopped by one of the other kind. -/
theorem firstFailure_vision {r : Bool × String} (h : firstFailure checks false c = some r)
    (hpass : ∀ k ∈ checks, k.1 = false → k.2 c = none) : r.1 = true := by
  obtain ⟨k, hk, hr⟩ := List.exists_of_findSome?_eq_some h
  cases hv : k.1 with
  | false => simp [hpass k hk hv] at hr
  | true =>
    simp only [hv, Bool.and_false, Bool.false_eq_true, if_false, Option.map_eq_some_iff] at hr
    obtain ⟨s, -, rfl⟩ := hr
    rfl

end FirstFailure

/-- The conditions on a target other than those about images. -/
structure NonVisionOk (req : AiRequest) (require : RouteRequire) (policy : RoutingPolicy)
    (c : ExecutionTarget) : Prop where
  streaming : (require.streaming = some true ∨ req.stream = true) → c.capabilities.streaming = true
  tools : (require.toolCalling = some true ∨ req.tools ≠ []) → c.capabilities.toolCalling = true
  serverTools : (require.serverTools = some true ∨ req.serverTools ≠ []) →
    c.capabilities.serverTools = true
  protocols : (require.serverTools = some true ∨ req.serverTools ≠ []) →
    ∀ p, ((∃ tool ∈ req.serverTools, tool.protocol = p) ∨ p ∈ require.serverToolProtocols) →
      c.capabilities.supportsServerToolProtocol p = true
  audio : require.audioIn = some true → c.capabilities.audioIn = true
  file : require.fileIn = some true → c.capabilities.fileIn = true
  imageOut : require.imageOut = some true → c.capabilities.imageOut = true
  reasoning : require.reasoningSummary = some true → c.capabilities.reasoningSummary = true
  jsonSchema : (require.jsonSchema = some true ∨
      ∃ name schema strict, req.responseFormat = some (.jsonSchema name schema strict)) →
    c.capabilities.jsonSchema = true
  context : ∀ required, require.minContextTokens = some required →
    match c.capabilities.maxContextTokens with
    | some maxContext => required ≤ maxContext
    | none => policy.unknownContext ≠ .reject
  health : c.health ≠ .down
  free : "free" ∈ c.policyTags → policy.allowFree = true
  promo : "promo" ∈ c.policyTags → policy.allowPromo = true
  aggregator : "aggregator" ∈ c.policyTags → policy.allowAggregator = true
  price : ∀ maxPrice cost, policy.maxPricePerMtok = some maxPrice → c.cost = some cost →
    Fp.lt maxPrice cost.blendedPerMtok = false
  unknownCost : c.cost = none → policy.unknownCost ≠ .reject

/-- Must the target take image input? -/
def VisionRequired (req : AiRequest) (require : RouteRequire) : Prop :=
  require.visionIn = some true ∨ require.visionSources ≠ [] ∨ ∃ p ∈ req.parts, p.isImage = true

/-- The conditions about images. -/
structure VisionOk (req : AiRequest) (require : RouteRequire) (c : ExecutionTarget) : Prop where
  vision : VisionRequired req require → c.capabilities.visionIn = true
  sources : VisionRequired req require →
    ∀ k, ((∃ p ∈ req.parts, p.imageSourceKind = some k) ∨ k ∈ require.visionSources) →
      c.capabilities.supportsImageSource k = true
  fileRefs : VisionRequired req require →
    ∀ provider id detail, .image (.providerFileRef (some provider) id) detail ∈ req.parts →
      provider = c.providerId

section Conditions

variable (req : AiRequest) (require : RouteRequire) (policy : RoutingPolicy)
  (c : ExecutionTarget)

theorem requireCapability_eq_none {needed : Bool} {has : CapabilityProfile → Bool}
    {reason : String} :
    requireCapability needed has reason c = none ↔ (needed = true → has c.capabilities = true) := by
  cases needed <;> simp [requireCapability]

theorem visionRequired_iff : (Needs.of req require).vision = true ↔ VisionRequired req require := by
  have hpos : 0 < req.imageCount ↔ ∃ p ∈ req.parts, p.isImage = true := by
    rw [AiRequest.imageCount, List.length_pos_iff_exists_mem]
    simp
  simp [Needs.of, VisionRequired, AiRequest.requiresVision, hpos, or_assoc]

theorem needs_serverTools_iff :
    (Needs.of req require).serverTools = true ↔
      require.serverTools = some true ∨ req.serverTools ≠ [] := by
  simp [Needs.of, AiRequest.requiresServerTools]

theorem mem_serverToolProtocols {p : ServerToolProtocol} :
    p ∈ (Needs.of req require).serverToolProtocols ↔
      (∃ tool ∈ req.serverTools, tool.protocol = p) ∨ p ∈ require.serverToolProtocols := by
  cases p <;> simp [Needs.of, AiRequest.requiredServerToolProtocols, ServerToolProtocol.all]

theorem mem_imageSources {k : ImageSourceKind} :
    k ∈ (Needs.of req require).imageSources ↔
      (∃ p ∈ req.parts, p.imageSourceKind = some k) ∨ k ∈ require.visionSources := by
  cases k <;> simp [Needs.of, AiRequest.requiredImageSources, ImageSourceKind.all]

theorem serverToolProtocolCheck_eq_none :
    serverToolProtocolCheck (Needs.of req require) c = none ↔
      ((require.serverTools = some true ∨ req.serverTools ≠ []) →
        ∀ p, ((∃ tool ∈ req.serverTools, tool.protocol = p) ∨
            p ∈ require.serverToolProtocols) →
          c.capabilities.supportsServerToolProtocol p = true) := by
  unfold serverToolProtocolCheck
  rw [← needs_serverTools_iff]
  split_ifs with h
  · simp only [Option.map_eq_none_iff, List.find?_eq_none, Bool.not_eq_true', Bool.not_eq_false,
      mem_serverToolProtocols, h, true_imp_iff]
  · simp [h]

theorem imageSourceCheck_eq_none :
    imageSourceCheck (Needs.of req require) c = none ↔
      (VisionRequired req require →
        ∀ k, ((∃ p ∈ req.parts, p.imageSourceKind = some k) ∨ k ∈ require.visionSources) →
          c.capabilities.supportsImageSource k = true) := by
  unfold imageSourceCheck
  rw [← visionRequired_iff]
  split_ifs with h
  · simp only [Option.map_eq_none_iff, List.find?_eq_none, Bool.not_eq_true', Bool.not_eq_false,
      mem_imageSources, h, true_imp_iff]
  · simp [h]

theorem fileRefScopeCheck_eq_none :
    fileRefScopeCheck (Needs.of req require) req c = none ↔
      (VisionRequired req require →
        ∀ provider id detail, .image (.providerFileRef (some provider) id) detail ∈ req.parts →
          provider = c.providerId) := by
  unfold fileRefScopeCheck
  rw [← visionRequired_iff]
  split_ifs with h
  · simp only [Option.map_eq_none_iff, providerFileRefScopeMismatch, List.findSome?_eq_none_iff,
      h, true_imp_iff]
    constructor
    · intro hall provider id detail hmem
      simpa using hall _ hmem
    · intro hall p hp
      split
      · rename_i provider id detail
        simp [hall provider id detail hp]
      · rfl
  · simp [h]

theorem contextCheck_eq_none :
    contextCheck require policy c = none ↔
      ∀ required, require.minContextTokens = some required →
        match c.capabilities.maxContextTokens with
        | some maxContext => required ≤ maxContext
        | none => policy.unknownContext ≠ .reject := by
  unfold contextCheck
  cases require.minContextTokens with
  | none => simp
  | some required => cases c.capabilities.maxContextTokens <;> simp

theorem laneCheck_eq_none :
    laneCheck policy c = none ↔
      ("free" ∈ c.policyTags → policy.allowFree = true) ∧
      ("promo" ∈ c.policyTags → policy.allowPromo = true) ∧
      ("aggregator" ∈ c.policyTags → policy.allowAggregator = true) := by
  simp only [laneCheck, Option.map_eq_none_iff, blockedLane]
  by_cases hf : "free" ∈ c.policyTags <;> by_cases hp : "promo" ∈ c.policyTags <;>
    by_cases ha : "aggregator" ∈ c.policyTags <;>
    cases policy.allowFree <;> cases policy.allowPromo <;> cases policy.allowAggregator <;>
    simp [hf, hp, ha]

theorem priceCheck_eq_none :
    priceCheck policy c = none ↔
      (∀ maxPrice cost, policy.maxPricePerMtok = some maxPrice → c.cost = some cost →
        Fp.lt maxPrice cost.blendedPerMtok = false) ∧
      (c.cost = none → policy.unknownCost ≠ .reject) := by
  unfold priceCheck
  cases policy.maxPricePerMtok <;> cases c.cost <;> simp

theorem needs_streaming_iff :
    (Needs.of req require).streaming = true ↔
      require.streaming = some true ∨ req.stream = true := by
  simp [Needs.of]

theorem needs_tools_iff :
    (Needs.of req require).tools = true ↔
      require.toolCalling = some true ∨ req.tools ≠ [] := by
  simp [Needs.of, AiRequest.requiresTools]

theorem needs_jsonSchema_iff :
    (Needs.of req require).jsonSchema = true ↔
      require.jsonSchema = some true ∨
        ∃ name schema strict, req.responseFormat = some (.jsonSchema name schema strict) := by
  simp only [Needs.of, Bool.or_eq_true, beq_iff_eq]
  refine or_congr_right ?_
  cases req.responseFormat with
  | none => simp
  | some format => cases format <;> simp

/-- **The relaxed filter passes exactly the targets that meet the conditions not about
images.** -/
theorem rejection_relaxed_eq_none_iff :
    rejection req require policy true c = none ↔ NonVisionOk req require policy c := by
  have hhealth : healthCheck c = none ↔ c.health ≠ .down := by simp [healthCheck]
  have hflag (f : Option Bool) : (f == some true) = true ↔ f = some true := beq_iff_eq
  rw [rejection, firstFailure_relaxed_eq_none]
  simp only [hardChecks, List.forall_mem_cons, List.not_mem_nil, false_imp_iff, implies_true,
    and_true, Bool.true_eq_false, true_and, forall_const, requireCapability_eq_none,
    serverToolProtocolCheck_eq_none, contextCheck_eq_none, laneCheck_eq_none, priceCheck_eq_none,
    needs_streaming_iff, needs_tools_iff, needs_serverTools_iff, needs_jsonSchema_iff, hhealth]
  simp only [Needs.of, hflag]
  constructor
  · rintro ⟨hs, ht, hst, hp, ha, hf, hi, hr, hj, hc, hh, ⟨hfree, hpromo, hagg⟩, hprice, hcost⟩
    exact ⟨hs, ht, hst, hp, ha, hf, hi, hr, hj, hc, hh, hfree, hpromo, hagg, hprice, hcost⟩
  · intro h
    exact ⟨h.streaming, h.tools, h.serverTools, h.protocols, h.audio, h.file, h.imageOut,
      h.reasoning, h.jsonSchema, h.context, h.health, ⟨h.free, h.promo, h.aggregator⟩, h.price,
      h.unknownCost⟩

/-- **The strict filter passes exactly the targets that meet all conditions.** -/
theorem rejection_strict_eq_none_iff :
    rejection req require policy false c = none ↔
      NonVisionOk req require policy c ∧ VisionOk req require c := by
  have hvision : VisionOk req require c ↔
      ∀ k ∈ hardChecks req require policy, k.1 = true → k.2 c = none := by
    simp only [hardChecks, List.forall_mem_cons, List.not_mem_nil, false_imp_iff, implies_true,
      and_true, Bool.false_eq_true, true_and, forall_const, requireCapability_eq_none,
      imageSourceCheck_eq_none, fileRefScopeCheck_eq_none, visionRequired_iff]
    exact ⟨fun h => ⟨h.vision, h.sources, h.fileRefs⟩, fun h => ⟨h.1, h.2.1, h.2.2⟩⟩
  rw [← rejection_relaxed_eq_none_iff, hvision, rejection, rejection,
    firstFailure_strict_eq_none, firstFailure_relaxed_eq_none]
  constructor
  · exact fun h => ⟨fun k hk _ => h k hk, fun k hk _ => h k hk⟩
  · rintro ⟨h1, h2⟩ k hk
    cases hv : k.1 with
    | false => exact h1 k hk hv
    | true => exact h2 k hk hv

/-- A target that meets the conditions not about images is stopped, if at all, by a check about
images. -/
theorem rejection_vision_of_nonVisionOk {req require policy c} {r : Bool × String}
    (h : rejection req require policy false c = some r) (hc : NonVisionOk req require policy c) :
    r.1 = true :=
  firstFailure_vision h
    (firstFailure_relaxed_eq_none.1 ((rejection_relaxed_eq_none_iff req require policy c).2 hc))

end Conditions

end Router

end Switchback
