import Switchback.Router.Order

/-!
# Planning a route

`planRoute` runs the hard filter over the candidates, once more with the image checks relaxed
when nothing survived and images were in the way, and then orders the survivors.
-/

namespace Switchback

open Lib

namespace Router

structure RoutePlan where
  candidates : List ExecutionTarget
  decision : RouteDecision

def strategyName (policy : RoutingPolicy) : String :=
  match policy.profile with
  | some profile => profile.id
  | none =>
      if policy.scoring.isSome then "score"
      else if policy.costAware then "cost_aware"
      else if policy.latencyAware then "latency_aware"
      else "ordered_fallback"

/-! ### The filter loop -/

/-- What the filter loop accumulates. -/
structure PassState where
  survivors : List ExecutionTarget := []
  rejected : List RejectedCandidate := []
  visionBlocked : List String := []

/-- A filter: the rejection of a candidate, by the strict or the relaxed pass. -/
abbrev Filter := Bool → ExecutionTarget → Option (Bool × String)

/-- One candidate of one pass. -/
def passStep (reject : Filter) (relaxVision : Bool) (st : PassState) (c : ExecutionTarget) :
    PassState :=
  match reject relaxVision c with
  | none => { st with survivors := st.survivors ++ [c] }
  | some (vision, reason) =>
      { st with
        rejected := st.rejected ++ [⟨c.id, reason⟩]
        visionBlocked := if vision then st.visionBlocked ++ [c.id] else st.visionBlocked }

def pass (reject : Filter) (relaxVision : Bool) (candidates : List ExecutionTarget)
    (st : PassState) : PassState :=
  candidates.foldl (passStep reject relaxVision) st

/-- The strict pass and, when it admits nothing and images were in the way, the relaxed pass;
the flag says whether the relaxed pass ran, and the number is the length of the strict pass's
evidence then. -/
def filterLoop (reject : Filter) (visionDegradable : Bool) (candidates : List ExecutionTarget) :
    PassState × Bool × ℕ :=
  let st := pass reject false candidates {}
  if !st.survivors.isEmpty || !visionDegradable || st.visionBlocked.isEmpty then (st, false, 0)
  else (pass reject true candidates { st with survivors := [] }, true, st.rejected.length)

/-! ### The plan -/

/-- The requirement lines that open every decision. -/
def requirementReasons (req : AiRequest) (routeName : String) (needs : Needs) : List String :=
  ["route=" ++ routeName,
    "stream_required=" ++ toString needs.streaming,
    "tools_required=" ++ toString needs.tools,
    "server_tools_required=" ++ toString needs.serverTools] ++
  (if needs.serverTools && !needs.serverToolProtocols.isEmpty then
    ["server_tool_protocols=" ++
      Text.join "," (needs.serverToolProtocols.map ServerToolProtocol.asStr)] else []) ++
  ["vision_required=" ++ toString needs.vision] ++
  (if needs.vision then
    ["image_count=" ++ toString req.imageCount] ++
      (if !needs.imageSources.isEmpty then
        ["image_sources=" ++ Text.join "," (needs.imageSources.map ImageSourceKind.asStr)]
      else [])
  else []) ++
  ["json_schema_required=" ++ toString needs.jsonSchema]

/-- May the image checks be relaxed? -/
def visionDegradable (req : AiRequest) (require : RouteRequire) (policy : RoutingPolicy) : Bool :=
  (Needs.of req require).vision && policy.visionDegrade && req.requiresVision &&
    require.visionIn != some true && require.visionSources.isEmpty

/-- The decision after the filter loop. -/
def filteredDecision (req : AiRequest) (routeName : String) (require : RouteRequire)
    (policy : RoutingPolicy) (loop : PassState × Bool × ℕ) : RouteDecision :=
  let decision : RouteDecision := { requestId := req.id, strategy := strategyName policy }
  let decision :=
    match policy.profile with
    | some profile => { decision with profile := some profile.id }.addReason
        ("profile=" ++ profile.id)
    | none => decision
  let decision := decision.addReasons (requirementReasons req routeName (Needs.of req require))
  let (st, relaxVision, strictRejectedLen) := loop
  let decision := { decision with rejected := st.rejected }
  if relaxVision && !st.survivors.isEmpty then
    -- the strict pass's evidence stays, the relaxed pass's duplicates go
    let decision := { decision with rejected := st.rejected.take strictRejectedLen }
    let dropped := toString req.imageCount
    let decision := decision.addCapabilityFallback
      { capability := "vision_in"
        action := "stripped_image_parts"
        detail := "no target on route `" ++ routeName ++
          "` accepts this request's image input; " ++ dropped ++
          " image part(s) dropped and served as text (blocked: " ++
          Text.join "," st.visionBlocked ++ ")" }
    decision.addReason ("capability_fallback=vision_in:" ++ dropped ++ "_images_dropped")
  else decision

/-- The decision once the order is known. -/
def finishDecision (decision : RouteDecision) (policy : RoutingPolicy) (streaming : Bool)
    (filtered : List ExecutionTarget) (ordered : List ExecutionTarget × List String)
    (qualityContext : Option QualityContext) (scoreByTarget : Option (OrdMap String F64)) :
    RouteDecision :=
  let decision := decision.addReasons ordered.2
  let noAccount := noAccountDemoted filtered
  let decision :=
    if 0 < noAccount then
      decision.addReason ("demoted " ++ toString noAccount ++
        " target(s) with no healthy accounts")
    else decision
  let decision := decision.addReasons
    ((scorecardDemoted filtered).map fun p => formatOutcomeDemote p.1 p.2)
  let decision := decision.addReasons
    (strategySummaryReason policy ordered.1.head? streaming scoreByTarget).toList
  let decision :=
    { decision with scores := routeScores ordered.1 policy streaming qualityContext }
  match ordered.1 with
  | [] => decision
  | selected :: fallbacks =>
      let decision := { decision with selected := some { targetId := selected.id } }
      let decision := decision.addReasons
        (selected.outcome.map fun o => formatOutcomeSelect selected.id o).toList
      let decision := decision.addReasons
        (formatQualityReason selected policy qualityContext).toList
      let decision :=
        if selected.unverified then
          { decision with unverified := true }.addReason
            "unverified passthrough: capabilities + price not catalog-verified"
        else decision
      { decision with
        fallbacks := decision.fallbacks ++ fallbacks.map fun t => { targetId := t.id } }

def planRoute (req : AiRequest) (routeName : String) (require : RouteRequire)
    (candidates : List ExecutionTarget) (policy : RoutingPolicy) : RoutePlan :=
  let streaming := (Needs.of req require).streaming
  let loop := filterLoop (rejection req require policy) (visionDegradable req require policy)
    candidates
  let decision := filteredDecision req routeName require policy loop
  let survivors := loop.1.survivors
  let qualityContext := QualityContext.new survivors policy
  let scoreByTarget := policy.scoring.map fun _ =>
    OrdMap.ofList ((routeScores survivors policy streaming qualityContext).map fun s =>
      (s.targetId, s.score))
  let ordered := orderSurvivors survivors policy streaming scoreByTarget
  { candidates := ordered.1
    decision := finishDecision decision policy streaming survivors ordered qualityContext
      scoreByTarget }

section Pass

variable (reject : Filter) (relaxVision : Bool)

/-- The evidence a pass records for a candidate. -/
def evidence (c : ExecutionTarget) : Option RejectedCandidate :=
  (reject relaxVision c).map fun r => ⟨c.id, r.2⟩

/-- The candidates that a pass admits. -/
def admitted (candidates : List ExecutionTarget) : List ExecutionTarget :=
  candidates.filter fun c => (reject relaxVision c).isNone

/-- The ids of the candidates that an image check stops. -/
def imageStopped (candidates : List ExecutionTarget) : List String :=
  (candidates.filter fun c => (reject relaxVision c).any Prod.fst).map ExecutionTarget.id

/-- **What a pass does**: it appends the candidates it admits, the evidence of the others and the
ids of those an image check stopped, each in candidate order. -/
theorem pass_eq (candidates : List ExecutionTarget) (st : PassState) :
    pass reject relaxVision candidates st =
      { survivors := st.survivors ++ admitted reject relaxVision candidates
        rejected := st.rejected ++ candidates.filterMap (evidence reject relaxVision)
        visionBlocked := st.visionBlocked ++ imageStopped reject relaxVision candidates } := by
  induction candidates generalizing st with
  | nil => simp [pass, admitted, imageStopped]
  | cons c candidates ih =>
    rw [pass, List.foldl_cons, ← pass, ih]
    cases h : reject relaxVision c with
    | none => simp [passStep, evidence, admitted, imageStopped, h]
    | some r =>
      obtain ⟨vision, reason⟩ := r
      cases vision <;> simp [passStep, evidence, admitted, imageStopped, h]

end Pass

/-! ### The loop -/

section Loop

variable (reject : Filter) (degradable : Bool) (candidates : List ExecutionTarget)

/-- The relaxed pass runs iff the strict pass admits nothing, the requirement may be relaxed and
an image check stopped some candidate. -/
theorem filterLoop_eq :
    filterLoop reject degradable candidates =
      if (admitted reject false candidates).isEmpty && degradable &&
          !(imageStopped reject false candidates).isEmpty then
        ({ survivors := admitted reject true candidates
           rejected := candidates.filterMap (evidence reject false) ++
             candidates.filterMap (evidence reject true)
           visionBlocked := imageStopped reject false candidates ++
             imageStopped reject true candidates },
          true, (candidates.filterMap (evidence reject false)).length)
      else
        ({ survivors := admitted reject false candidates
           rejected := candidates.filterMap (evidence reject false)
           visionBlocked := imageStopped reject false candidates }, false, 0) := by
  simp only [filterLoop, pass_eq, List.nil_append]
  cases (admitted reject false candidates).isEmpty <;> cases degradable <;>
    cases (imageStopped reject false candidates).isEmpty <;> rfl

/-- A filter whose relaxed pass skips checks of one kind only. -/
def Relaxes (reject : Filter) : Prop :=
  ∀ c r, reject false c = some r → reject true c = none → r.1 = true

variable {reject candidates}

theorem imageStopped_eq_nil :
    imageStopped reject false candidates = [] ↔
      ∀ c ∈ candidates, ∀ reason, reject false c ≠ some (true, reason) := by
  rw [imageStopped, List.map_eq_nil_iff, List.filter_eq_nil_iff]
  refine forall₂_congr fun c _ => ?_
  cases h : reject false c with
  | none => simp
  | some r =>
    obtain ⟨vision, reason⟩ := r
    cases vision <;> simp

theorem admitted_relaxed_eq_nil (h : Relaxes reject)
    (hstrict : admitted reject false candidates = [])
    (hblocked : imageStopped reject false candidates = []) :
    admitted reject true candidates = [] := by
  rw [admitted, List.filter_eq_nil_iff] at hstrict ⊢
  intro c hc hrelaxed
  cases hr : reject false c with
  | none => exact hstrict c hc (by simp [hr])
  | some r =>
    have hvision := h c r hr (by simpa using hrelaxed)
    exact imageStopped_eq_nil.1 hblocked c hc r.2 (by rw [hr, ← hvision])

theorem filterLoop_survivors (h : Relaxes reject) :
    (filterLoop reject degradable candidates).1.survivors =
      if admitted reject false candidates ≠ [] then admitted reject false candidates
      else if degradable then admitted reject true candidates
      else [] := by
  rw [filterLoop_eq]
  by_cases hstrict : admitted reject false candidates = []
  · cases degradable with
    | false => simp [hstrict]
    | true =>
      by_cases hblocked : imageStopped reject false candidates = []
      · simp [hstrict, hblocked, admitted_relaxed_eq_nil h hstrict hblocked]
      · simp [hstrict, hblocked]
  · simp [hstrict]

end Loop

/-! ### Eligibility -/

section Eligibility

variable (req : AiRequest) (routeName : String) (require : RouteRequire)
  (candidates : List ExecutionTarget) (policy : RoutingPolicy)

/-- All conditions on a target. -/
structure HardOk (req : AiRequest) (require : RouteRequire) (policy : RoutingPolicy)
    (c : ExecutionTarget) : Prop extends
  NonVisionOk req require policy c, VisionOk req require c

instance (c : ExecutionTarget) : Decidable (NonVisionOk req require policy c) :=
  decidable_of_iff _ (rejection_relaxed_eq_none_iff req require policy c)

instance (c : ExecutionTarget) : Decidable (HardOk req require policy c) :=
  decidable_of_iff (rejection req require policy false c = none)
    ((rejection_strict_eq_none_iff req require policy c).trans
      ⟨fun h => ⟨h.1, h.2⟩, fun h => ⟨h.1, h.2⟩⟩)

/-- The image requirement comes from the request alone and the policy lets it be relaxed. -/
def Degradable : Prop :=
  policy.visionDegrade = true ∧ (∃ p ∈ req.parts, p.isImage = true) ∧
    require.visionIn ≠ some true ∧ require.visionSources = []

theorem visionDegradable_iff :
    visionDegradable req require policy = true ↔ Degradable req require policy := by
  have hpos : req.requiresVision = true ↔ ∃ p ∈ req.parts, p.isImage = true := by
    rw [AiRequest.requiresVision, decide_eq_true_iff, AiRequest.imageCount,
      List.length_pos_iff_exists_mem]
    simp
  simp only [visionDegradable, Bool.and_eq_true, visionRequired_iff, VisionRequired, hpos,
    bne_iff_ne, List.isEmpty_iff, Degradable]
  tauto

instance : Decidable (Degradable req require policy) :=
  decidable_of_iff _ (visionDegradable_iff req require policy)

/-- **What planning is for**: the targets that meet all conditions; when there is none and the
image requirement may be relaxed, those that meet the other conditions. -/
def eligible : List ExecutionTarget :=
  if candidates.filter (fun c => HardOk req require policy c) ≠ [] then
    candidates.filter fun c => HardOk req require policy c
  else if Degradable req require policy then
    candidates.filter fun c => NonVisionOk req require policy c
  else []

theorem rejection_relaxes : Relaxes (rejection req require policy) := fun c _ hr hrelaxed =>
  rejection_vision_of_nonVisionOk hr
    ((rejection_relaxed_eq_none_iff req require policy c).1 hrelaxed)

theorem admitted_strict :
    admitted (rejection req require policy) false candidates =
      candidates.filter fun c => HardOk req require policy c := by
  refine List.filter_congr fun c _ => ?_
  rw [Bool.eq_iff_iff, Option.isNone_iff_eq_none, rejection_strict_eq_none_iff,
    decide_eq_true_iff]
  exact ⟨fun h => ⟨h.1, h.2⟩, fun h => ⟨h.1, h.2⟩⟩

theorem admitted_relaxed :
    admitted (rejection req require policy) true candidates =
      candidates.filter fun c => NonVisionOk req require policy c := by
  refine List.filter_congr fun c _ => ?_
  rw [Bool.eq_iff_iff, Option.isNone_iff_eq_none, rejection_relaxed_eq_none_iff,
    decide_eq_true_iff]

theorem planRoute_perm_eligible :
    (planRoute req routeName require candidates policy).candidates.Perm
      (eligible req require candidates policy) := by
  refine (orderSurvivors_perm _ _ _ _).trans ?_
  rw [filterLoop_survivors _ (rejection_relaxes req require policy), admitted_strict,
    admitted_relaxed, eligible]
  simp only [visionDegradable_iff]
  exact List.Perm.refl _

/-- Ordering adds reasons, scores and references; the evidence of the filter stays. -/
theorem finishDecision_evidence (decision : RouteDecision) (streaming : Bool)
    (filtered : List ExecutionTarget) (ordered : List ExecutionTarget × List String)
    (qualityContext : Option QualityContext) (scoreByTarget : Option (OrdMap String F64)) :
    let d := finishDecision decision policy streaming filtered ordered qualityContext scoreByTarget
    d.rejected = decision.rejected ∧ d.capabilityFallback = decision.capabilityFallback := by
  intro d
  simp only [d, finishDecision]
  split
  · split_ifs <;> simp
  · split_ifs <;> simp

theorem filteredDecision_evidence (loop : PassState × Bool × ℕ) :
    let d := filteredDecision req routeName require policy loop
    d.rejected = (if loop.2.1 && !loop.1.survivors.isEmpty then
        loop.1.rejected.take loop.2.2 else loop.1.rejected) ∧
      (d.capabilityFallback ≠ [] ↔ (loop.2.1 && !loop.1.survivors.isEmpty) = true) := by
  obtain ⟨st, relaxVision, len⟩ := loop
  intro d
  simp only [d, filteredDecision]
  cases policy.profile <;> split_ifs with h <;> simp [h]

theorem filteredDecision_degraded (loop : PassState × Bool × ℕ) :
    (filteredDecision req routeName require policy loop).degraded "vision_in" =
      (loop.2.1 && !loop.1.survivors.isEmpty) := by
  obtain ⟨st, relaxVision, len⟩ := loop
  simp only [filteredDecision]
  cases policy.profile <;> split_ifs with h <;> simp [RouteDecision.degraded, h]

theorem admitted_strict_eq_nil :
    admitted (rejection req require policy) false candidates = [] ↔
      ∀ c ∈ candidates, ¬ HardOk req require policy c := by
  rw [admitted_strict, List.filter_eq_nil_iff]
  simp

theorem admitted_relaxed_ne_nil :
    admitted (rejection req require policy) true candidates ≠ [] ↔
      ∃ c ∈ candidates, NonVisionOk req require policy c := by
  rw [admitted_relaxed, ne_eq, List.filter_eq_nil_iff]
  simp

/-- No target meets all conditions, the image requirement may be relaxed and some target meets
the other conditions. -/
def FallsBack : Prop :=
  (∀ c ∈ candidates, ¬ HardOk req require policy c) ∧ Degradable req require policy ∧
    ∃ c ∈ candidates, NonVisionOk req require policy c

theorem filterLoop_relaxed_iff :
    ((filterLoop (rejection req require policy) (visionDegradable req require policy)
          candidates).2.1 &&
        !(filterLoop (rejection req require policy) (visionDegradable req require policy)
          candidates).1.survivors.isEmpty) = true ↔
      FallsBack req require candidates policy := by
  rw [FallsBack, ← admitted_strict_eq_nil, ← admitted_relaxed_ne_nil, ← visionDegradable_iff,
    filterLoop_eq]
  -- the relaxed pass ran and admitted something
  constructor
  · split_ifs with hran
    · simp only [Bool.and_eq_true, Bool.not_eq_true', List.isEmpty_iff,
        List.isEmpty_eq_false_iff] at hran ⊢
      rintro ⟨-, hsome⟩
      exact ⟨hran.1.1, hran.1.2, hsome⟩
    · simp
  · rintro ⟨hnone, hdeg, hsome⟩
    have hblocked : imageStopped (rejection req require policy) false candidates ≠ [] :=
      fun h => hsome (admitted_relaxed_eq_nil (rejection_relaxes req require policy) hnone h)
    simp [hnone, hdeg, hblocked, hsome]

theorem planRoute_degraded_iff :
    (planRoute req routeName require candidates policy).decision.degraded "vision_in" = true ↔
      FallsBack req require candidates policy := by
  simp only [planRoute]
  rw [← filterLoop_relaxed_iff, ← filteredDecision_degraded req routeName, RouteDecision.degraded,
    (finishDecision_evidence policy _ _ _ _ _ _).2, RouteDecision.degraded]

/-! ### The candidate set -/

/-- A target without the live evidence that only ordering reads. -/
def hardView (c : ExecutionTarget) : ExecutionTarget :=
  { c with outcome := none, quality := none, latencyEwmaMs := none, ttftEwmaMs := none,
           healthyAccounts := none }

/-- A policy without the knobs that only ordering reads. -/
def hardPolicy (p : RoutingPolicy) : RoutingPolicy :=
  { p with profile := none, scoring := none, costAware := false, latencyAware := false,
           scorecard := {}, qualityEval := {} }

theorem nonVisionOk_hardView {req require policy c} :
    NonVisionOk req require (hardPolicy policy) (hardView c) ↔
      NonVisionOk req require policy c :=
  ⟨fun h => ⟨h.1, h.2, h.3, h.4, h.5, h.6, h.7, h.8, h.9, h.10, h.11, h.12, h.13, h.14, h.15,
      h.16⟩,
    fun h => ⟨h.1, h.2, h.3, h.4, h.5, h.6, h.7, h.8, h.9, h.10, h.11, h.12, h.13, h.14, h.15,
      h.16⟩⟩

theorem hardOk_hardView {req require policy c} :
    HardOk req require (hardPolicy policy) (hardView c) ↔ HardOk req require policy c :=
  ⟨fun h => ⟨nonVisionOk_hardView.1 h.1, ⟨h.2.1, h.2.2, h.2.3⟩⟩,
    fun h => ⟨nonVisionOk_hardView.2 h.1, ⟨h.2.1, h.2.2, h.2.3⟩⟩⟩

theorem eligible_hardView :
    eligible req require (candidates.map hardView) (hardPolicy policy) =
      (eligible req require candidates policy).map hardView := by
  have hdeg : Degradable req require (hardPolicy policy) ↔ Degradable req require policy :=
    Iff.rfl
  simp only [eligible, List.filter_map, Function.comp_def, hardOk_hardView, nonVisionOk_hardView,
    hdeg, ne_eq, List.map_eq_nil_iff]
  split_ifs <;> rfl

/-- **The plan is exactly the hard filter.**  Its candidates permute the eligible targets; a
capability fallback is recorded exactly when no target met all conditions, the image requirement
may be relaxed and some target met the others; and neither live evidence nor the ordering knobs
of the policy change the candidate set. -/
theorem planRoute_candidates :
    (planRoute req routeName require candidates policy).candidates.Perm
        (eligible req require candidates policy) ∧
      ((planRoute req routeName require candidates policy).decision.capabilityFallback ≠ [] ↔
        (∀ c ∈ candidates, ¬ HardOk req require policy c) ∧ Degradable req require policy ∧
          ∃ c ∈ candidates, NonVisionOk req require policy c) ∧
      ∀ candidates' policy', candidates'.map hardView = candidates.map hardView →
        hardPolicy policy' = hardPolicy policy →
        ((planRoute req routeName require candidates' policy').candidates.map hardView).Perm
          ((planRoute req routeName require candidates policy).candidates.map hardView) := by
  have hperm := planRoute_perm_eligible req routeName require
  refine ⟨hperm candidates policy, ?_, ?_⟩
  · rw [← FallsBack, ← filterLoop_relaxed_iff]
    simp only [planRoute]
    rw [(finishDecision_evidence policy _ _ _ _ _ _).2,
      (filteredDecision_evidence req routeName require policy _).2]
  · intro candidates' policy' hcandidates hpolicy
    have h := congrArg₂ (eligible req require) hcandidates hpolicy
    rw [eligible_hardView, eligible_hardView] at h
    exact ((hperm candidates' policy').map _).trans (h ▸ ((hperm candidates policy).map _).symm)

/-- **Rejection evidence.**  The decision holds one entry for each candidate that the strict pass
rejected, in candidate order, and nothing else, unless the image requirement may be relaxed, an
image check stopped some candidate and no candidate meets the other conditions: then the relaxed
pass's entries stay behind them. -/
theorem planRoute_rejected_iff :
    (planRoute req routeName require candidates policy).decision.rejected =
        candidates.filterMap (evidence (rejection req require policy) false) ↔
      ¬ (Degradable req require policy ∧
        (∃ c ∈ candidates, ∃ reason, rejection req require policy false c = some (true, reason)) ∧
        ∀ c ∈ candidates, ¬ NonVisionOk req require policy c) := by
  have hblocked : imageStopped (rejection req require policy) false candidates ≠ [] ↔
      ∃ c ∈ candidates, ∃ reason,
        rejection req require policy false c = some (true, reason) := by
    rw [ne_eq, imageStopped_eq_nil]
    push Not
    rfl
  have hrelaxed : admitted (rejection req require policy) true candidates = [] ↔
      ∀ c ∈ candidates, ¬ NonVisionOk req require policy c := by
    rw [← not_ne_iff, admitted_relaxed_ne_nil]
    push Not
    rfl
  -- a target that meets all conditions meets those not about images
  have hstrict (h : ∀ c ∈ candidates, ¬ NonVisionOk req require policy c) :
      admitted (rejection req require policy) false candidates = [] :=
    (admitted_strict_eq_nil req require candidates policy).2 fun c hc hok => h c hc hok.1
  rw [← hblocked, ← visionDegradable_iff]
  simp only [planRoute]
  rw [(finishDecision_evidence policy _ _ _ _ _ _).1,
    (filteredDecision_evidence req routeName require policy _).1, filterLoop_eq]
  constructor
  · rintro h ⟨hdeg, hstop, hnone⟩
    simp only [hstrict hnone, hrelaxed.2 hnone, hdeg, List.isEmpty_nil, Bool.and_self,
      Bool.not_true, Bool.and_false, Bool.false_eq_true, if_false,
      List.isEmpty_eq_false_iff.2 hstop, Bool.not_false, if_true] at h
    rw [List.append_right_eq_self] at h
    obtain ⟨c, hc, -⟩ := hblocked.1 hstop
    have hev : (evidence (rejection req require policy) true c).isSome = true := by
      rw [evidence, Option.isSome_map, Option.isSome_iff_ne_none]
      exact fun hok => hnone c hc ((rejection_relaxed_eq_none_iff _ _ _ _).1 hok)
    obtain ⟨e, he⟩ := Option.isSome_iff_exists.1 hev
    have hmem : e ∈ candidates.filterMap (evidence (rejection req require policy) true) :=
      List.mem_filterMap.2 ⟨c, hc, he⟩
    rw [h] at hmem
    exact absurd hmem (by simp)
  · intro h
    split_ifs with hran hsurv hsurv
    · rw [List.take_left]
    · -- the relaxed pass ran and admitted nothing
      simp only [Bool.and_eq_true, Bool.not_eq_true', List.isEmpty_eq_false_iff] at hran
      refine absurd ⟨hran.1.2, hran.2, hrelaxed.1 ?_⟩ h
      simpa using hsurv
    · simp at hsurv
    · rfl

end Eligibility

/-- A request with one remote image that asks for a JSON schema. -/
def screenshotRequest : AiRequest where
  id := "req_1"
  model := "coding"
  messages := [{ role := .user, content := [.text "what is this?",
    .image (.remoteUrl "https://example.test/a.png") none] }]
  responseFormat := some (.jsonSchema "answer" .null true)

/-- A target that sees images and answers in JSON. -/
def sightedTarget : ExecutionTarget :=
  { ExecutionTarget.new "kimi" "k3" .modelApi with
    capabilities := { visionIn := true, jsonSchema := true } }

/-- Losing every account and turning on cost ordering leaves the candidate set alone. -/
theorem planRoute_candidates_screenshot :
    (planRoute screenshotRequest "coding" {} [sightedTarget] {}).candidates.length = 1 ∧
      ((planRoute screenshotRequest "coding" {} [{ sightedTarget with healthyAccounts := some 0 }]
          { costAware := true }).candidates.map hardView).Perm
        ((planRoute screenshotRequest "coding" {} [sightedTarget] {}).candidates.map hardView) :=
  ⟨by decide +kernel,
    (planRoute_candidates screenshotRequest "coding" {} [sightedTarget] {}).2.2 _ _ rfl rfl⟩

/-- A text-only target without JSON schemas is rejected once in each pass. -/
theorem planRoute_rejects_twice :
    ¬ ∀ (req : AiRequest) (routeName : String) (require : RouteRequire)
        (candidates : List ExecutionTarget) (policy : RoutingPolicy),
      (planRoute req routeName require candidates policy).decision.rejected =
        candidates.filterMap (evidence (rejection req require policy) false) := by
  intro h
  have hrejected := h screenshotRequest "coding" {} [ExecutionTarget.new "kimi" "k3" .modelApi] {}
  revert hrejected
  decide +kernel

end Router

end Switchback
