import Switchback.Lib.Members
import Switchback.Protocols.GeminiRequest

/-!
# Chat Completions requests to an upstream

The body of a request for Chat Completions.  Parameters that the client sent and nobody reads are
passed through unless a member of that name is there.
-/

namespace Switchback

open Lib

def ImageDetail.asStr : ImageDetail → String
  | low => "low"
  | high => "high"
  | auto => "auto"
  | original => "original"

def Role.toOpenAi : Role → String
  | system => "system"
  | user => "user"
  | assistant => "assistant"
  | tool => "tool"

def imageToOpenAiUrl (source : ImageSource) : Except String String := do
  source.validate
  match source with
  | .inlineBase64 mediaType data => .ok s!"data:{mediaType};base64,{data}"
  | .remoteUrl url => .ok url
  | .providerFileRef .. =>
      .error "OpenAI Chat Completions cannot encode provider file image references"

def openAiContentPart : ContentPart → Except String (List Json)
  | .text text =>
      .ok (if text = "" then [] else [Json.mkObj [("type", .str "text"), ("text", .str text)]])
  | .image source detail => do
      let url ← imageToOpenAiUrl source
      let imageUrl := Json.mkObj
        ([("url", .str url)] ++ (detail.map fun d => ("detail", Json.str d.asStr)).toList)
      return [Json.mkObj [("type", .str "image_url"), ("image_url", imageUrl)]]
  | _ => .ok []

/-- A string, or a list of parts when there is an image. -/
def openAiMessageContent (parts : List ContentPart) : Except String Json :=
  if parts.any ContentPart.isImage then
    (parts.mapM openAiContentPart).map fun content => .arr content.flatten
  else .ok (.str (partsText parts))

def openAiToolPart : ContentPart → Except String (List Json)
  | .toolResult toolUseId content _ _ =>
      .ok [Json.mkObj [("role", .str "tool"), ("tool_call_id", .str toolUseId),
        ("content", .str content)]]
  | .text text => .ok [Json.mkObj [("role", .str "tool"), ("content", .str text)]]
  | .image .. => .error "OpenAI Chat cannot encode image content in tool messages"
  | _ => .ok []

section

variable (toJsonString : Json → String)

def openAiToolCall : ContentPart → Option Json
  | .toolUse id name args =>
      some (Json.mkObj [("id", .str id), ("type", .str "function"),
        ("function", Json.mkObj
          [("name", .str name), ("arguments", .str (toJsonString args))])])
  | _ => none

/-- An assistant turn that only calls tools has a null content. -/
def openAiAssistantMessage (content : List ContentPart) : Json :=
  let text := partsText content
  let toolCalls := content.filterMap (openAiToolCall toJsonString)
  if toolCalls.isEmpty then
    Json.mkObj [("role", .str Role.assistant.toOpenAi), ("content", .str text)]
  else
    Json.mkObj [("role", .str Role.assistant.toOpenAi),
      ("content", if text = "" then .null else .str text), ("tool_calls", .arr toolCalls)]

def openAiMessages (message : Message) : Except String (List Json) :=
  match message.role with
  | .tool => (message.content.mapM openAiToolPart).map List.flatten
  | .assistant => do
      rejectImageParts message.content "OpenAI assistant messages"
      return [openAiAssistantMessage toJsonString message.content]
  | .system => do
      rejectImageParts message.content "OpenAI system messages"
      let content ← openAiMessageContent message.content
      return [Json.mkObj [("role", .str Role.system.toOpenAi), ("content", content)]]
  | .user => do
      let content ← openAiMessageContent message.content
      return [Json.mkObj [("role", .str Role.user.toOpenAi), ("content", content)]]

/-! ### The body -/

def openAiSystemMessage (system : String) : Json :=
  Json.mkObj [("role", .str "system"), ("content", .str system)]

def openAiTool (tool : ToolSpec) : Json :=
  let function := Json.mkObj
    ([("name", .str tool.name)] ++
      (tool.description.map fun description => ("description", Json.str description)).toList ++
      [("parameters", tool.parameters)])
  Json.mkObj [("type", .str "function"), ("function", function)]

def openAiResponseFormat : ResponseFormat → Json
  | .text => Json.mkObj [("type", .str "text")]
  | .jsonObject => Json.mkObj [("type", .str "json_object")]
  | .jsonSchema name schema strict =>
      Json.mkObj [("type", .str "json_schema"),
        ("json_schema", Json.mkObj
          [("name", .str name), ("schema", schema), ("strict", .bool strict)])]

/-- The members that are set; a temperature that is not a number is left out. -/
def openAiMembers (req : AiRequest) (upstreamModel : String) (stream : Bool)
    (messages : List Json) : List (String × Json) :=
  [("model", Json.str upstreamModel), ("messages", Json.arr messages),
      ("stream", Json.bool stream)] ++
    (req.maxOutputTokens.map fun maxTokens => ("max_tokens", Json.ofNat maxTokens)).toList ++
    temperatureField req.temperature ++
    (if req.tools.isEmpty then [] else [("tools", Json.arr (req.tools.map openAiTool))]) ++
    (req.responseFormat.map fun format => ("response_format", openAiResponseFormat format)).toList

def requestToOpenAiWire (req : AiRequest) (upstreamModel : String) (stream : Bool) :
    Except String Json := do
  req.validateCanonical
  let turns ← req.messages.mapM (openAiMessages toJsonString)
  let messages := (req.system.map openAiSystemMessage).toList ++ turns.flatten
  let body := OrdMap.ofList (openAiMembers req upstreamModel stream messages)
  return .obj (body.orInsertAll req.passthrough).entries

end

/-! ### The members of the body -/

/-- The keys of members that are set one by one. -/
theorem keys_option {α : Type} (key : String) (f : α → Json) (o : Option α) :
    ((o.map fun a => (key, f a)).toList.map Prod.fst).Sublist [key] := by
  cases o with
  | none => exact List.nil_sublist _
  | some a => exact List.Sublist.refl _

theorem keys_if (key : String) (v : Json) (p : Prop) [Decidable p] :
    ((if p then [] else [(key, v)]).map Prod.fst).Sublist [key] := by
  split
  · exact List.nil_sublist _
  · exact List.Sublist.refl _

theorem keys_temperatureField (t : Option F32) :
    ((temperatureField t).map Prod.fst).Sublist ["temperature"] := by
  unfold temperatureField
  cases (t.map fun t => (Fp.convert t : F64)).filter Fp.isFinite with
  | none => exact List.nil_sublist _
  | some t => exact List.Sublist.refl _

theorem keys_openAiMembers (req : AiRequest) (upstreamModel : String) (stream : Bool)
    (messages : List Json) :
    ((openAiMembers req upstreamModel stream messages).map Prod.fst).Sublist
      (["model", "messages", "stream"] ++ ["max_tokens"] ++ ["temperature"] ++ ["tools"] ++
        ["response_format"]) := by
  unfold openAiMembers
  simp only [List.map_append]
  exact ((((List.Sublist.refl _).append (keys_option _ _ _)).append
    (keys_temperatureField _)).append (keys_if _ _ _)).append (keys_option _ _ _)

theorem nodup_openAiMembers (req : AiRequest) (upstreamModel : String) (stream : Bool)
    (messages : List Json) :
    ((openAiMembers req upstreamModel stream messages).map Prod.fst).Nodup :=
  List.Nodup.sublist (keys_openAiMembers req upstreamModel stream messages) (by decide)

/-- A body is made of the turns, the members that are set and the parameters passed through. -/
theorem requestToOpenAiWire_eq_ok_iff {toJsonString : Json → String} {req : AiRequest}
    {upstreamModel : String} {stream : Bool} {body : Json} :
    requestToOpenAiWire toJsonString req upstreamModel stream = .ok body ↔
      req.validateCanonical = .ok () ∧
      ∃ turns, req.messages.mapM (openAiMessages toJsonString) = .ok turns ∧
        body = .obj ((OrdMap.ofList (openAiMembers req upstreamModel stream
          ((req.system.map openAiSystemMessage).toList ++ turns.flatten))).orInsertAll
            req.passthrough).entries := by
  unfold requestToOpenAiWire
  simp only [bind_eq_ok_iff]
  constructor
  · rintro ⟨⟨⟩, hvalid, turns, hturns, hbody⟩
    exact ⟨hvalid, turns, hturns, (Except.ok.inj hbody).symm⟩
  · rintro ⟨hvalid, turns, hturns, rfl⟩
    exact ⟨(), hvalid, turns, hturns, rfl⟩

theorem get_openAiBody (req : AiRequest) (upstreamModel : String) (stream : Bool)
    (messages : List Json) (k : String) :
    Json.get k (.obj ((OrdMap.ofList (openAiMembers req upstreamModel stream
      messages)).orInsertAll req.passthrough).entries) =
        (OrdMap.getList k (openAiMembers req upstreamModel stream messages)).or
          (OrdMap.getList k req.passthrough) := by
  show ((OrdMap.ofList _).orInsertAll _).get k = _
  rw [OrdMap.get_orInsertAll, OrdMap.get_ofList (nodup_openAiMembers _ _ _ _)]

end Switchback
