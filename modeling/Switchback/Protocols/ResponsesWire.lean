import Switchback.Protocols.OpenAiWire

/-!
# Responses requests to an upstream

The body of a request for the Responses API: its input, its instructions and its tools.
-/

namespace Switchback

open Lib

/-! ### Content -/

/-- A file of another provider cannot be referred to. -/
def imageToResponsesContent (source : ImageSource) (detail : Option ImageDetail) :
    Except String Json := do
  source.validate
  let image : List (String × Json) :=
    [("type", .str "input_image"), ("detail", .str (detail.getD .auto).asStr)]
  match source with
  | .inlineBase64 mediaType data =>
      .ok (Json.mkObj (image ++ [("image_url", Json.str s!"data:{mediaType};base64,{data}")]))
  | .remoteUrl url => .ok (Json.mkObj (image ++ [("image_url", Json.str url)]))
  | .providerFileRef provider id =>
      if provider.any fun owner => owner ≠ "openai" then
        .error ("OpenAI Responses cannot encode provider file ref owned by `" ++
          provider.getD "" ++ "`")
      else .ok (Json.mkObj (image ++ [("file_id", Json.str id)]))

def responsesToolResultPart : ToolResultContentPart → Except String Json
  | .text text => .ok (Json.mkObj [("type", .str "input_text"), ("text", .str text)])
  | .image source detail => imageToResponsesContent source detail

/-- The text alone, unless the parts say more. -/
def toolResultOutputToResponses (content : String) (contentParts : List ToolResultContentPart) :
    Except String Json :=
  if contentParts.isEmpty ∨ contentParts = [.text content] then .ok (.str content)
  else (contentParts.mapM responsesToolResultPart).map Json.arr

def responsesContentPart (role : Role) : ContentPart → Except String (List Json)
  | .text text =>
      .ok (if text = "" then []
        else [Json.mkObj
          [("type", .str (if role = .assistant then "output_text" else "input_text")),
            ("text", .str text)]])
  | .image source detail =>
      if role ≠ .user then .error "OpenAI Responses can only encode image content in user messages"
      else (imageToResponsesContent source detail).map fun image => [image]
  | _ => .ok []

def messageContentToResponsesParts (message : Message) : Except String (List Json) :=
  (message.content.mapM (responsesContentPart message.role)).map List.flatten

section

variable (toJsonString : Json → String)

def responsesFunctionCall : ContentPart → Option Json
  | .toolUse id name args =>
      some (Json.mkObj [("type", .str "function_call"), ("call_id", .str id), ("name", .str name),
        ("arguments", .str (toJsonString args))])
  | _ => none

def responsesToolPart : ContentPart → Except String (List Json)
  | .toolResult toolUseId content contentParts _ => do
      let output ← toolResultOutputToResponses content contentParts
      return [Json.mkObj [("type", .str "function_call_output"), ("call_id", .str toolUseId),
        ("output", output)]]
  | .image .. => .error "OpenAI Responses cannot encode image content in tool messages"
  | _ => .ok []

/-- The instructions a message sets, and what it adds to the input. -/
def responsesTurn (message : Message) : Except String (Option String × List Json) :=
  match message.role with
  | .system => do
      rejectImageParts message.content "Responses system messages"
      return (if message.text = "" then none else some message.text, [])
  | .tool => do
      let items ← message.content.mapM responsesToolPart
      return (none, items.flatten)
  | role => do
      let content ← messageContentToResponsesParts message
      let turn : List Json :=
        if content.isEmpty then []
        else [Json.mkObj [("type", .str "message"),
          ("role", .str (if role = .assistant then "assistant" else "user")),
          ("content", .arr content)]]
      return (none, turn ++ message.content.filterMap (responsesFunctionCall toJsonString))

/-! ### The body -/

def responsesTool (tool : ToolSpec) : Json :=
  Json.mkObj
    ([("type", .str "function"), ("name", .str tool.name),
      ("description", tool.description.elim .null Json.str), ("parameters", tool.parameters)] ++
      if tool.deferLoading then [("defer_loading", .bool true)] else [])

/-- Another protocol's tool search becomes the protocol's own, if a tool is deferred. -/
def responsesServerTool (hasDeferredTools : Bool) (tool : ServerToolSpec) :
    Except String (List Json) :=
  match tool.protocol with
  | .openAiResponses => .ok [tool.config]
  | .anthropic =>
      if Text.startsWith "tool_search_tool_" tool.kind then
        .ok (if hasDeferredTools then [Json.mkObj [("type", .str "tool_search")]] else [])
      else
        .error s!"OpenAI Responses cannot encode {tool.protocol.asStr} server tool `{tool.kind}`"

def responsesTools (req : AiRequest) : Except String (List (String × Json)) :=
  if req.tools.isEmpty && req.serverTools.isEmpty then .ok []
  else do
    let serverTools ← req.serverTools.mapM
      (responsesServerTool (req.tools.any ToolSpec.deferLoading))
    return [("tools", .arr (req.tools.map responsesTool ++ serverTools.flatten))]

/-- Instructions that are set again replace what was there. -/
def responsesMembers (req : AiRequest) (model : String) (stream : Bool)
    (turns : List (Option String × List Json)) (tools : List (String × Json)) :
    List (String × Json) :=
  let instructions := (req.system.filter fun system => system ≠ "").toList ++
    turns.filterMap Prod.fst
  [("model", Json.str model), ("stream", Json.bool stream)] ++
    (instructions.map fun text => ("instructions", Json.str text)) ++
    [("input", Json.arr (turns.flatMap Prod.snd))] ++ tools ++
    (req.temperature.map fun t => ("temperature", Json.ofFloat (Fp.convert t))).toList ++
    (req.maxOutputTokens.map fun n => ("max_output_tokens", Json.ofNat n)).toList

def requestToOpenAiResponsesWire (req : AiRequest) (model : String) (stream : Bool) :
    Except String Json := do
  req.validateCanonical
  let turns ← req.messages.mapM (responsesTurn toJsonString)
  let tools ← responsesTools req
  let body := OrdMap.ofList (responsesMembers req model stream turns tools)
  return .obj (body.orInsertAll req.passthrough).entries

end

theorem requestToOpenAiResponsesWire_eq_ok_iff {toJsonString : Json → String} {req : AiRequest}
    {model : String} {stream : Bool} {body : Json} :
    requestToOpenAiResponsesWire toJsonString req model stream = .ok body ↔
      req.validateCanonical = .ok () ∧
      ∃ turns, req.messages.mapM (responsesTurn toJsonString) = .ok turns ∧
        ∃ tools, responsesTools req = .ok tools ∧
          body = .obj ((OrdMap.ofList (responsesMembers req model stream turns tools)).orInsertAll
            req.passthrough).entries := by
  unfold requestToOpenAiResponsesWire
  simp only [bind_eq_ok_iff]
  constructor
  · rintro ⟨⟨⟩, hvalid, turns, hturns, tools, htools, hbody⟩
    exact ⟨hvalid, turns, hturns, tools, htools, (Except.ok.inj hbody).symm⟩
  · rintro ⟨hvalid, turns, hturns, tools, htools, rfl⟩
    exact ⟨(), hvalid, turns, hturns, tools, htools, rfl⟩

end Switchback
