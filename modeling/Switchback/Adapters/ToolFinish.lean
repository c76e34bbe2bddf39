import Switchback.Adapters.Codec
import Switchback.Lib.Fallible
import Switchback.Protocols.Gemini

/-!
# The finish reason of a response with tool calls

Neither the Responses format nor Gemini's has a finish reason for tool calls, so it has to come
from the content.
-/

namespace Switchback

namespace ToolFinish

open Lib

/-- What comes from upstream. -/
inductive Upstream where
  | responses (body : Json)
  | responsesStream (frames : List Json)
  | gemini (body : Json)
  | geminiStream (chunks : List Json)

/-- A part of a Gemini candidate whose datum is a function call. -/
def isCallPart (part : Json) : Bool :=
  (part.getStr "text").isNone &&
    ((part.get "functionCall").filter fun call => call.asObject.isSome).isSome

/-- The parts of the first candidate. -/
def candidateParts (body : Json) : Option (List Json) :=
  ((body.getArray "candidates").bind List.head?).map fun candidate =>
    ((candidate.get "content").bind (Json.getArray "parts")).getD []

def geminiCalls (body : Json) : Bool := ((candidateParts body).getD []).any isCallPart

/-- An item of a Responses object that is a function call. -/
def isCallItem (item : Json) : Bool := item.getStr "type" = some "function_call"

namespace Upstream

def isGemini : Upstream → Bool
  | gemini _ | geminiStream _ => true
  | _ => false

/-- The response is complete and has a function call in it. -/
def AsksForTools : Upstream → Prop
  | responses body =>
      body.getStr "status" = some "completed" ∧
        ((body.getArray "output").getD []).any isCallItem
  | responsesStream frames =>
      (∃ frame ∈ frames, responsesFrameKind frame = .completed) ∧
        ∃ frame ∈ frames, responsesFrameKind frame = .outputItemAdded ∧ (itemCall frame).isSome
  | gemini body => geminiCalls body
  | geminiStream chunks => chunks.any geminiCalls

end Upstream

def finishReasonOf : AiStreamEvent → Option FinishReason
  | .messageEnd reason => some reason
  | _ => none

/-- The reasons with which a stream ends. -/
def finishReasons (events : List AiStreamEvent) : List FinishReason :=
  events.filterMap finishReasonOf

section

variable (fromStr : String → Except String Json) (newId : String → String) (model : String)
  (toJsonString : Json → String)

/-- The decoded response ends for this reason, once. -/
def Upstream.Says (reason : FinishReason) : Upstream → Prop
  | .responses body =>
      ∃ resp, parseOpenAiResponsesResponse fromStr body = .ok resp ∧ resp.finishReason = reason
  | .responsesStream frames =>
      finishReasons (({ model := model } : OpenAiResponsesDecoder).decodeStream frames) = [reason]
  | .gemini body => ∃ resp, parseGeminiResponse newId body = .ok resp ∧ resp.finishReason = reason
  | .geminiStream chunks =>
      finishReasons (({ model := model } : GeminiStreamDecoder).decodeStream toJsonString chunks) =
        [reason]

/-! ### Responses -/

theorem finishReason_of_completed {body : Json} {resp : AiResponse}
    (hstatus : body.getStr "status" = some "completed")
    (h : parseOpenAiResponsesResponse fromStr body = .ok resp) : resp.finishReason = .stop := by
  unfold parseOpenAiResponsesResponse at h
  cases houtput : body.getArray "output" with
  | none =>
    rw [houtput] at h
    cases h
  | some output =>
    rw [houtput] at h
    obtain ⟨content, -, hresp⟩ := bind_eq_ok_iff.mp h
    cases hresp
    dsimp only
    rw [hstatus]
    rfl

theorem finishReasons_append (l₁ l₂ : List AiStreamEvent) :
    finishReasons (l₁ ++ l₂) = finishReasons l₁ ++ finishReasons l₂ := List.filterMap_append

theorem finishReasons_map {α : Type} {f : α → AiStreamEvent} (h : ∀ a, finishReasonOf (f a) = none)
    (l : List α) : finishReasons (l.map f) = [] := by
  unfold finishReasons
  rw [List.filterMap_map, List.filterMap_eq_nil_iff]
  exact fun a _ => h a

/-- A frame of a Responses stream ends the message with a stop, if it is the completed one. -/
theorem finishReasons_decode (d : OpenAiResponsesDecoder) (frame : Json) :
    finishReasons (d.decode frame).1 =
      if responsesFrameKind frame = .completed then [.stop] else [] := by
  unfold OpenAiResponsesDecoder.decode
  cases responsesFrameKind frame with
  | outputItemAdded =>
    dsimp only
    cases itemCall frame with
    | none => rfl
    | some start =>
      show finishReasons (d.openCall frame start).1 = []
      unfold OpenAiResponsesDecoder.openCall
      split
      · rfl
      · dsimp only
        split <;> rfl
  | argumentsDelta =>
    dsimp only
    split <;> rfl
  | argumentsDone =>
    show finishReasons (d.closeCall frame) = []
    unfold OpenAiResponsesDecoder.closeCall
    dsimp only
    split
    · rw [finishReasons_append]
      split
      · rfl
      · rw [finishReasons_map fun _ => rfl]
        rfl
    · rfl
  | outputTextDelta => exact finishReasons_map (fun _ => rfl) _
  | reasoningDelta => exact finishReasons_map (fun _ => rfl) _
  | annotationAdded => exact finishReasons_map (fun _ => rfl) _
  | imageCompleted => exact finishReasons_map (fun _ => rfl) _
  | _ => rfl

theorem finishReasons_responses (d : OpenAiResponsesDecoder) (frames : List Json) :
    finishReasons (d.decodeStream frames) =
      List.replicate (frames.countP fun frame => responsesFrameKind frame = .completed) .stop := by
  induction frames generalizing d with
  | nil => rfl
  | cons frame frames ih =>
    rw [OpenAiResponsesDecoder.decodeStream, finishReasons_append, finishReasons_decode, ih]
    by_cases h : responsesFrameKind frame = .completed
    · rw [if_pos h, List.countP_cons_of_pos (by simpa using h), List.replicate_succ]
      rfl
    · rw [if_neg h, List.countP_cons_of_neg (by simpa using h), List.nil_append]

/-! ### Gemini -/

theorem any_isToolUse_parseGeminiParts (counter : ℕ) (parts : List Json) :
    (parseGeminiParts counter parts).any ContentPart.isToolUse = parts.any isCallPart := by
  induction parts generalizing counter with
  | nil => rfl
  | cons part parts ih =>
    rw [parseGeminiParts, List.any_cons, isCallPart]
    cases htext : part.getStr "text" with
    | some text =>
      dsimp only
      rw [List.any_append, ih]
      split <;> rfl
    | none =>
      cases hcall : (part.get "functionCall").filter fun call => call.asObject.isSome with
      | some call => rfl
      | none => exact ih counter

theorem says_gemini {body : Json} (h : geminiCalls body) (reason : FinishReason) :
    (Upstream.gemini body).Says fromStr newId model toJsonString reason ↔ reason = .toolCalls := by
  unfold Upstream.Says parseGeminiResponse
  unfold geminiCalls candidateParts at h
  cases hcandidate : (body.getArray "candidates").bind List.head? with
  | none =>
    rw [hcandidate] at h
    cases h
  | some candidate =>
    rw [hcandidate] at h
    simp only [hcandidate, any_isToolUse_parseGeminiParts]
    have hparts : (((candidate.get "content").bind (Json.getArray "parts")).getD []).any
        isCallPart = true := h
    rw [hparts]
    constructor
    · rintro ⟨resp, hresp, rfl⟩
      cases hresp
      rfl
    · rintro rfl
      exact ⟨_, rfl, rfl⟩

variable (d : GeminiStreamDecoder)

theorem decodeParts_spec (parts : List Json) :
    finishReasons (d.decodeParts toJsonString parts).1 = [] ∧
      (d.decodeParts toJsonString parts).2.stopReason =
        (if parts.any isCallPart then some .toolCalls else d.stopReason) ∧
      (d.decodeParts toJsonString parts).2.ended = d.ended ∧
      (d.decodeParts toJsonString parts).2.started = d.started := by
  induction parts generalizing d with
  | nil => exact ⟨rfl, rfl, rfl, rfl⟩
  | cons part parts ih =>
    rw [GeminiStreamDecoder.decodeParts, List.any_cons, isCallPart]
    cases htext : part.getStr "text" with
    | some text =>
      obtain ⟨hends, hrest⟩ := ih d
      dsimp only
      rw [finishReasons_append, hends]
      refine ⟨?_, hrest⟩
      split <;> rfl
    | none =>
      cases hcall : (part.get "functionCall").filter fun call => call.asObject.isSome with
      | none => exact ih d
      | some call =>
        obtain ⟨hends, hreason, hended, hstarted⟩ := ih
          { d with toolIndex := (d.toolIndex + 1) % 2 ^ 32, stopReason := some .toolCalls }
        refine ⟨?_, ?_, hended, hstarted⟩
        · show finishReasons
            (GeminiStreamDecoder.callEvents toJsonString d.toolIndex call ++ _) = []
          rw [finishReasons_append, hends]
          rfl
        · refine hreason.trans ?_
          cases parts.any isCallPart <;> rfl

theorem decode_spec (chunk : Json) :
    finishReasons (d.decode toJsonString chunk).1 = [] ∧
      (d.decode toJsonString chunk).2.ended = d.ended ∧
      (d.decode toJsonString chunk).2.started = true ∧
      (geminiCalls chunk ∨ d.stopReason = some .toolCalls →
        (d.decode toJsonString chunk).2.stopReason = some .toolCalls) := by
  have hstart : finishReasons (if d.started then []
      else [.messageStart ((chunk.getStr "responseId").getD "")
        ((chunk.getStr "modelVersion").getD d.model)]) = [] := by
    split <;> rfl
  unfold GeminiStreamDecoder.decode geminiCalls candidateParts
  cases hcandidate : (chunk.getArray "candidates").bind List.head? with
  | none =>
    refine ⟨hstart, rfl, rfl, ?_⟩
    rintro (hcall | hnoted)
    · cases hcall
    · exact hnoted
  | some candidate =>
    dsimp only
    obtain ⟨hends, hreason, hended, hstarted⟩ := decodeParts_spec toJsonString
      { d with
        started := true
        usage := (chunk.get "usageMetadata").elim d.usage fun metadata =>
          usageFromGemini (some metadata) }
      (((candidate.get "content").bind (Json.getArray "parts")).getD [])
    rw [finishReasons_append, hstart, hends]
    refine ⟨rfl, ?_, ?_, ?_⟩
    · unfold GeminiStreamDecoder.noteFinishReason
      split <;> exact hended
    · unfold GeminiStreamDecoder.noteFinishReason
      split <;> exact hstarted
    · intro hcall
      have hnoted : (GeminiStreamDecoder.decodeParts toJsonString
          { d with
            started := true
            usage := (chunk.get "usageMetadata").elim d.usage fun metadata =>
              usageFromGemini (some metadata) }
          (((candidate.get "content").bind (Json.getArray "parts")).getD [])).2.stopReason =
            some .toolCalls := by
        rw [hreason]
        split
        · rfl
        · next hno => exact hcall.resolve_left hno
      unfold GeminiStreamDecoder.noteFinishReason
      split
      · exact hnoted
      · dsimp only
        rw [hnoted]
        rfl

theorem finishReasons_gemini (chunks : List Json) (hended : d.ended = false)
    (h : chunks.any geminiCalls ∨ d.started = true ∧ d.stopReason = some .toolCalls) :
    finishReasons (d.decodeStream toJsonString chunks) = [.toolCalls] := by
  induction chunks generalizing d with
  | nil =>
    obtain ⟨hstarted, hreason⟩ := h.resolve_left nofun
    rw [GeminiStreamDecoder.decodeStream]
    unfold GeminiStreamDecoder.finish
    rw [hended, hstarted, hreason]
    rfl
  | cons chunk chunks ih =>
    obtain ⟨hends, hended', hstarted', hnoted⟩ := decode_spec toJsonString d chunk
    rw [GeminiStreamDecoder.decodeStream, finishReasons_append, hends, List.nil_append]
    refine ih _ (hended'.trans hended) ?_
    rw [List.any_cons, Bool.or_eq_true] at h
    rcases h with (hhere | hlater) | ⟨-, hreason⟩
    · exact .inr ⟨hstarted', hnoted (.inl hhere)⟩
    · exact .inl hlater
    · exact .inr ⟨hstarted', hnoted (.inr hreason)⟩

theorem says_geminiStream {chunks : List Json} (h : chunks.any geminiCalls)
    (reason : FinishReason) :
    (Upstream.geminiStream chunks).Says fromStr newId model toJsonString reason ↔
      reason = .toolCalls := by
  show finishReasons (({ model := model } : GeminiStreamDecoder).decodeStream toJsonString chunks) =
    [reason] ↔ _
  rw [finishReasons_gemini toJsonString _ chunks rfl (.inl h)]
  exact ⟨fun heq => (List.cons.inj heq).1.symm, fun heq => by rw [heq]⟩

/-- **A response that asks for tools says so**, whole or streamed, exactly when it is Gemini's; and
what the two decoders of that format say is the same. -/
theorem asks_for_tools_iff :
    (∀ u : Upstream, u.AsksForTools →
      (u.Says fromStr newId model toJsonString .toolCalls ↔ u.isGemini = true)) ∧
    (∀ (body : Json) (chunks : List Json), (Upstream.gemini body).AsksForTools →
      (Upstream.geminiStream chunks).AsksForTools → ∀ reason : FinishReason,
        ((Upstream.gemini body).Says fromStr newId model toJsonString reason ↔
          (Upstream.geminiStream chunks).Says fromStr newId model toJsonString reason)) := by
  constructor
  · intro u hasks
    cases u with
    | responses body =>
      refine ⟨?_, nofun⟩
      rintro ⟨resp, hresp, hreason⟩
      rw [finishReason_of_completed fromStr hasks.1 hresp] at hreason
      cases hreason
    | responsesStream frames =>
      refine ⟨fun hsays => ?_, nofun⟩
      have hends := (finishReasons_responses { model := model } frames).symm.trans hsays
      have hmem : FinishReason.toolCalls ∈ List.replicate
          (frames.countP fun frame => responsesFrameKind frame = .completed) .stop := by
        rw [hends]
        exact List.mem_cons_self
      cases List.eq_of_mem_replicate hmem
    | gemini body =>
      exact iff_of_true ((says_gemini fromStr newId model toJsonString hasks _).mpr rfl) rfl
    | geminiStream chunks =>
      exact iff_of_true ((says_geminiStream fromStr newId model toJsonString hasks _).mpr rfl) rfl
  · intro body chunks hbody hchunks reason
    rw [says_gemini fromStr newId model toJsonString hbody,
      says_geminiStream fromStr newId model toJsonString hchunks]

end

/-- A completed response with one call. -/
def calledResponse : Json :=
  Json.mkObj
    [("status", .str "completed"), ("output", .arr [Json.mkObj
      [("type", .str "function_call"), ("call_id", .str "call_1"), ("name", .str "get_weather"),
        ("arguments", .str "[]")]])]

def calledCandidate : Json :=
  Json.mkObj [("candidates", .arr [Json.mkObj [("content", Json.mkObj
    [("parts", .arr [Json.mkObj [("functionCall", Json.mkObj
      [("name", .str "get_weather")])]])])]])]

theorem asks_for_tools_gemini :
    (Upstream.gemini calledCandidate).Says (fun s => .ok (.str s)) id "" (fun _ => "") .toolCalls ∧
      ((Upstream.gemini calledCandidate).Says (fun s => .ok (.str s)) id "" (fun _ => "") .stop ↔
        (Upstream.geminiStream [calledCandidate]).Says (fun s => .ok (.str s)) id ""
          (fun _ => "") .stop) :=
  have hbody : (Upstream.gemini calledCandidate).AsksForTools := by
    show geminiCalls calledCandidate = true
    decide +kernel
  have hchunks : (Upstream.geminiStream [calledCandidate]).AsksForTools := by
    show [calledCandidate].any geminiCalls = true
    decide +kernel
  ⟨((asks_for_tools_iff (fun s => .ok (.str s)) id "" fun _ => "").1 _ hbody).mpr rfl,
    (asks_for_tools_iff (fun s => .ok (.str s)) id "" fun _ => "").2 _ _ hbody hchunks .stop⟩

/-- A completed Responses object with a call in it stops. -/
theorem called_response_stops :
    ¬ ∀ (fromStr : String → Except String Json) (newId : String → String) (model : String)
        (toJsonString : Json → String) (u : Upstream), u.AsksForTools →
      u.Says fromStr newId model toJsonString .toolCalls := by
  intro hall
  have hasks : (Upstream.responses calledResponse).AsksForTools :=
    ⟨by decide +kernel, by decide +kernel⟩
  obtain ⟨resp, hresp, hreason⟩ :=
    hall (fun _ => .ok (.arr [])) id "" (fun _ => "") _ hasks
  have hparsed : (parseOpenAiResponsesResponse (fun _ => .ok (.arr []))
      calledResponse).toOption.map AiResponse.finishReason = some .stop := by decide +kernel
  rw [hresp] at hparsed
  have hstop : resp.finishReason = .stop := Option.some.inj hparsed
  cases hstop.symm.trans hreason

end ToolFinish

end Switchback
