import Switchback.Router.Plan
import Switchback.Protocols.Responses

/-!
# Images and the targets they reach

An image can stand in a request in two places: as a part of a message, and among the content
parts of a tool result.  The router gates on the images of a request, checks their source kinds
and may relax the requirement; the engine then strips the images before it dispatches.
-/

namespace Switchback

open Lib

/-! ### The images of a request -/

def ToolResultContentPart.imageSource : ToolResultContentPart → Option ImageSource
  | image source _ => some source
  | text _ => none

namespace ContentPart

/-- The images among the content parts of a tool result. -/
def toolResultImages : ContentPart → List ImageSource
  | toolResult _ _ contentParts _ => contentParts.filterMap ToolResultContentPart.imageSource
  | _ => []

/-- The images of a part, in either place. -/
def images : ContentPart → List ImageSource
  | image source _ => [source]
  | part => part.toolResultImages

end ContentPart

namespace AiRequest

def toolResultImages (req : AiRequest) : List ImageSource :=
  req.parts.flatMap ContentPart.toolResultImages

/-- The images of a request, in either place. -/
def images (req : AiRequest) : List ImageSource := req.parts.flatMap ContentPart.images

theorem mem_images {req : AiRequest} {source : ImageSource} :
    source ∈ req.images ↔
      (∃ detail, .image source detail ∈ req.parts) ∨ source ∈ req.toolResultImages := by
  simp only [images, toolResultImages, List.mem_flatMap]
  constructor
  · rintro ⟨part, hpart, hsource⟩
    cases part with
    | image source' detail =>
      rw [ContentPart.images, List.mem_singleton] at hsource
      exact .inl ⟨detail, hsource ▸ hpart⟩
    | _ => exact .inr ⟨_, hpart, hsource⟩
  · rintro (⟨detail, hpart⟩ | ⟨part, hpart, hsource⟩)
    · exact ⟨_, hpart, by simp [ContentPart.images]⟩
    · cases part with
      | toolResult => exact ⟨_, hpart, hsource⟩
      | _ => simp [ContentPart.toolResultImages] at hsource

/-- **What stripping leaves**: the images inside tool results. -/
theorem images_stripImageParts (marker : String) (req : AiRequest) :
    (req.stripImageParts marker).images = req.toolResultImages := by
  have hpart (part : ContentPart) :
      ContentPart.images (if part.isImage then .text marker else part) = part.toolResultImages := by
    cases part <;> rfl
  have hparts : (req.stripImageParts marker).parts =
      req.parts.map fun part => if part.isImage then .text marker else part := by
    simp only [parts, stripImageParts, List.flatMap_map, List.map_flatMap]
  rw [images, hparts, List.flatMap_map, toolResultImages]
  exact List.flatMap_congr fun part _ => hpart part

end AiRequest

/-! ### Planning and dispatching -/

open Router

/-- The request that is dispatched under a plan. -/
def degrade (plan : RoutePlan) (req : AiRequest) : AiRequest :=
  if plan.decision.degraded "vision_in" then
    req.stripImageParts
      "[image omitted: this model cannot accept image input, so the attached image was not sent]"
  else req

/-- The target accepts vision and the source kinds of the images. -/
def Router.TakesImages (images : List ImageSource) (c : ExecutionTarget) : Prop :=
  c.capabilities.visionIn = true ∧
    ∀ source ∈ images, c.capabilities.supportsImageSource source.kind = true

section Images

variable (req : AiRequest) (routeName : String) (require : RouteRequire)
  (candidates : List ExecutionTarget) (policy : RoutingPolicy)

/-- A target that passes the strict filter takes the images that are parts of messages. -/
theorem Router.HardOk.takes_parts {req require policy} {c : ExecutionTarget}
    (h : HardOk req require policy c) {source : ImageSource} {detail : Option ImageDetail}
    (hpart : .image source detail ∈ req.parts) :
    c.capabilities.supportsImageSource source.kind = true :=
  h.sources (.inr (.inr ⟨_, hpart, rfl⟩)) _ (.inl ⟨_, hpart, rfl⟩)

theorem visionIn_of_supportsImageSource {caps : CapabilityProfile} {kind : ImageSourceKind}
    (h : caps.supportsImageSource kind = true) : caps.visionIn = true := by
  rw [CapabilityProfile.supportsImageSource, Bool.and_eq_true] at h
  exact h.1

theorem mem_planRoute_of_not_fallsBack (h : ¬ FallsBack req require candidates policy)
    {c : ExecutionTarget} :
    c ∈ (planRoute req routeName require candidates policy).candidates ↔
      c ∈ candidates ∧ HardOk req require policy c := by
  rw [(planRoute_perm_eligible req routeName require candidates policy).mem_iff, eligible]
  split_ifs with hstrict hdeg
  · simp
  · -- nothing meets all conditions, so nothing meets the others either
    have hnone : ∀ c ∈ candidates, ¬ HardOk req require policy c := by simpa using hstrict
    constructor
    · intro hc
      rw [List.mem_filter, decide_eq_true_iff] at hc
      exact absurd ⟨hnone, hdeg, c, hc⟩ h
    · exact fun hc => absurd hc.2 (hnone c hc.1)
  · have hnone : ∀ c ∈ candidates, ¬ HardOk req require policy c := by simpa using hstrict
    simpa using fun hc => hnone c hc

/-- **When no image reaches a target that cannot take it.**  A request with an image is planned
only onto targets that take all its images, or falls back to a request without images, exactly
when for each image inside a tool result the plan does not fall back and every candidate that
passes the hard filter takes it: the filter and the stripping look at the parts of messages
alone. -/
theorem images_planned_iff :
    (req.images ≠ [] →
      let plan := planRoute req routeName require candidates policy
      if plan.decision.degraded "vision_in" then (degrade plan req).images = []
      else ∀ c ∈ plan.candidates, TakesImages req.images c) ↔
      ∀ source ∈ req.toolResultImages,
        ¬ FallsBack req require candidates policy ∧
          ∀ c ∈ candidates, HardOk req require policy c →
            c.capabilities.supportsImageSource source.kind = true := by
  have himages {source} (h : source ∈ req.toolResultImages) : source ∈ req.images :=
    AiRequest.mem_images.2 (.inr h)
  have hiff := planRoute_degraded_iff req routeName require candidates policy
  by_cases hfalls : FallsBack req require candidates policy
  · simp only [degrade, hiff.2 hfalls, hfalls, if_true, not_true_eq_false, false_and, imp_false,
      AiRequest.images_stripImageParts]
    constructor
    · intro h source hsource
      have hnil := h (List.ne_nil_of_mem (himages hsource))
      exact absurd hsource (hnil ▸ List.not_mem_nil)
    · exact fun h _ => List.eq_nil_iff_forall_not_mem.2 h
  · simp only [mt hiff.1 hfalls, hfalls, not_false_eq_true, true_and,
      mem_planRoute_of_not_fallsBack req routeName require candidates policy hfalls]
    constructor
    · intro h source hsource c hc hok
      exact (h (List.ne_nil_of_mem (himages hsource)) c ⟨hc, hok⟩).2 source (himages hsource)
    · rintro h hne c ⟨hc, hok⟩
      have htakes : ∀ source ∈ req.images,
          c.capabilities.supportsImageSource source.kind = true := by
        intro source hsource
        rcases AiRequest.mem_images.1 hsource with ⟨detail, hpart⟩ | hnested
        · exact hok.takes_parts hpart
        · exact h source hnested c hc hok
      obtain ⟨source, hsource⟩ := List.exists_mem_of_ne_nil _ hne
      exact ⟨visionIn_of_supportsImageSource (htakes source hsource), htakes⟩

end Images

/-- A conversation in which a tool answers with a screenshot. -/
def screenshotResult : AiRequest where
  id := "req_1"
  model := "coding"
  messages := [{ role := .user, content := [.text "what is on screen?"] },
    { role := .assistant, content := [.toolUse "call_0" "screenshot" .null] },
    { role := .tool, content := [.toolResult "call_0" ""
        [.image (.remoteUrl "https://example.test/a.png") none] false] }]

/-- The screenshot comes in through the Responses surface and is planned onto a text-only target,
with no fallback recorded. -/
theorem nested_image_planned_textOnly :
    parseToolResultOutput (some (.arr [.obj [("type", .str "input_image"),
        ("image_url", .str "https://example.test/a.png")]])) =
      .ok ("", [.image (.remoteUrl "https://example.test/a.png") none]) ∧
    ¬ (screenshotResult.images ≠ [] →
      let plan := planRoute screenshotResult "coding" {} [ExecutionTarget.new "kimi" "k3" .modelApi]
        {}
      if plan.decision.degraded "vision_in" then (degrade plan screenshotResult).images = []
      else ∀ c ∈ plan.candidates, TakesImages screenshotResult.images c) := by
  refine ⟨by rfl, fun h => ?_⟩
  have hok : HardOk screenshotResult {} {} (ExecutionTarget.new "kimi" "k3" .modelApi) := by
    decide +kernel
  have hfalls : ¬ FallsBack screenshotResult {} [ExecutionTarget.new "kimi" "k3" .modelApi] {} :=
    fun h => h.1 _ (List.mem_singleton_self _) hok
  replace h := h (by decide)
  simp only [mt (planRoute_degraded_iff _ _ _ _ _).1 hfalls,
    mem_planRoute_of_not_fallsBack _ _ _ _ _ hfalls] at h
  exact absurd (h _ ⟨List.mem_singleton_self _, hok⟩).1 (by decide)

end Switchback
