import Switchback.Protocols.Anthropic

/-!
# OpenAI Responses

Random identifiers come from a parameter `newId` and a count of the draws.
-/

namespace Switchback

open Lib

/-! ### A whole response -/

/-- The text of a content value; the array form has its own reader. -/
def responsesContentText : Option Json → Except String String
  | none | some .null => .ok ""
  | some (.str text) => .ok text
  | some _ => .error "Responses message content must be a string, null, or array"

def outputFormatToMediaType (format : Option String) : String :=
  let format := format.getD "png"
  if Text.contains "/" format then format else s!"image/{format}"

def reasoningSummaryText (item : Json) : String :=
  String.join (((item.getArray "summary").getD []).filterMap fun part =>
    if part.getStr "type" = some "summary_text" then part.getStr "text" else none)

/-- The citations of one content part. -/
def citationParts (part : Json) : List ContentPart :=
  ((part.getArray "annotations").getD []).filterMap fun note =>
    if note.getStr "type" = some "url_citation" then
      (note.getStr "url").map fun url => .citation url (note.getStr "title") none
    else none

def messageOutputParts (item : Json) : Except String (List ContentPart) :=
  match item.getArray "content" with
  | none => do
      let text ← responsesContentText (item.get "content")
      return if text = "" then [] else [.text text]
  | some content =>
      .ok (content.flatMap fun part =>
        ((part.getStr "text").filter fun text => text ≠ "").toList.map .text ++ citationParts part)

/-- The parts of one output item. -/
def parseResponsesItem (fromStr : String → Except String Json) (item : Json) :
    Except String (List ContentPart) :=
  match item.getStr "type" with
  | some "message" => messageOutputParts item
  | some "reasoning" =>
      let text := reasoningSummaryText item
      .ok (if text = "" then [] else [.reasoning text none])
  | some "function_call" =>
      .ok [.toolUse
        ((((item.get "call_id").or (item.get "id")).bind Json.asStr).getD "")
        ((item.getStr "name").getD "")
        (((item.getStr "arguments").bind fun args => (fromStr args).toOption).getD .null)]
  | some "image_generation_call" =>
      .ok ((item.getStr "result").toList.map fun data =>
        ContentPart.imageBase64 (outputFormatToMediaType (item.getStr "output_format")) data)
  | some kind =>
      match Text.stripSuffix "_call" kind with
      | some name =>
          .ok [.serverToolUse ((item.getStr "id").getD "") name ((item.get "action").getD .null)]
      | none => .ok []
  | none => .ok []

def finishReasonFromStatus : Option String → FinishReason
  | some "incomplete" => .length
  | some "failed" => .error
  | _ => .stop

def parseResponsesUsage (value energy : Option Json) : Usage :=
  match value with
  | none => { energy := parseEnergyUsage energy }
  | some value =>
      { inputTokens := (value.getU64 "input_tokens").getD 0
        cachedInputTokens :=
          ((value.pointer ["input_tokens_details", "cached_tokens"]).bind Json.asU64).getD 0
        outputTokens := (value.getU64 "output_tokens").getD 0
        reasoningTokens :=
          ((value.pointer ["output_tokens_details", "reasoning_tokens"]).bind Json.asU64).getD 0
        energy := parseEnergyUsage energy }

def parseOpenAiResponsesResponse (fromStr : String → Except String Json) (body : Json) :
    Except String AiResponse := do
  let some output := body.getArray "output" | .error "Responses response missing `output` array"
  let content ← output.mapM (parseResponsesItem fromStr)
  return {
    id := (body.getStr "id").getD "resp"
    model := (body.getStr "model").getD ""
    message := { role := .assistant, content := content.flatten }
    finishReason := finishReasonFromStatus (body.getStr "status")
    usage := parseResponsesUsage (body.get "usage")
      ((body.get "energy").or (body.pointer ["usage", "energy"])) }

/-- The non-empty texts of a tool result, one to a line. -/
def toolResultPartsToText (parts : List ToolResultContentPart) : String :=
  Text.join "\n" (parts.filterMap fun
    | .text text => if text = "" then none else some text
    | .image .. => none)

/-- One content part of a `function_call_output`. -/
def parseToolResultPart (item : Json) : Except String ToolResultContentPart :=
  match item.getStr "type" with
  | some "input_text" =>
      match item.getStr "text" with
      | some text => .ok (.text text)
      | none => .error "Responses tool result input_text missing string `text`"
  | some "input_image" => do
      let detail ← parseImageDetail (item.getStr "detail")
      match item.getStr "image_url", item.getStr "file_id" with
      | some url, _ =>
          match ContentPart.splitBase64DataUrl url with
          | some (mediaType, data) => return .image (.inlineBase64 mediaType data) detail
          | none => return .image (.remoteUrl url) detail
      | none, some id => return .image (.providerFileRef (some "openai") id) detail
      | none, none =>
          .error "Responses tool result input_image missing `image_url` or `file_id`"
  | some other => .error s!"unsupported Responses tool result content part `{other}`"
  | none => .error "Responses tool result content part missing string `type`"

/-- The text and the parts of a tool result; image parts have no text. -/
def parseToolResultOutput :
    Option Json → Except String (String × List ToolResultContentPart)
  | none | some .null => .ok ("", [])
  | some (.str text) => .ok (text, if text = "" then [] else [.text text])
  | some (.arr items) => do
      let parts ← items.mapM parseToolResultPart
      return (toolResultPartsToText parts, parts)
  | some _ => .error "Responses function_call_output `output` must be a string, null, or array"

/-! ### The stream -/

def responsesUsageJson (usage : Usage) : Json :=
  Json.mkObj
    ([("input_tokens", Json.ofNat usage.inputTokens),
        ("output_tokens", Json.ofNat usage.outputTokens),
        ("total_tokens", Json.ofNat usage.total)] ++
      (usage.energy.map fun energy => ("energy", energyUsageJson energy)).toList)

def finishStr : FinishReason → String
  | .stop => "completed"
  | .length => "incomplete"
  | .toolCalls => "completed"
  | .contentFilter => "incomplete"
  | .error => "failed"

/-- A tool call that goes out as a `function_call` item. -/
structure OutputCall where
  callId : String
  name : String
  args : String

structure OpenAiResponsesStreamEncoder where
  responseId : String
  model : String
  itemId : String
  outputIndex : ℕ := 0
  textOpen : Bool := false
  text : String := ""
  usage : Usage := {}
  status : String := "completed"
  toolCalls : List OutputCall := []
  curTool : Option OutputCall := none
  reasoningId : String
  reasoning : String := ""
  reasoningOpen : Bool := false
  reasoningItem : Option Json := none
  /-- The identifiers drawn so far. -/
  drawn : ℕ := 2

namespace OpenAiResponsesStreamEncoder

def new (newId : String → ℕ → String) (responseId model : String) :
    OpenAiResponsesStreamEncoder where
  responseId := responseId
  model := model
  itemId := newId "msg" 0
  reasoningId := newId "rs" 1

/-- A frame whose payload repeats its event name as `type`. -/
def frame (event : String) (fields : List (String × Json)) : SseFrame where
  event := event
  data := Json.mkObj (("type", .str event) :: fields)

/-- A frame about the item at the current output index. -/
def itemFrame (event : String) (outputIndex : ℕ) (item : Json) : SseFrame :=
  frame event [("output_index", Json.ofNat outputIndex), ("item", item)]

def outputText (text : String) : Json :=
  Json.mkObj [("type", .str "output_text"), ("text", .str text), ("annotations", .arr [])]

def reasoningItemJson (id : String) (summary : List Json) : Json :=
  Json.mkObj [("type", .str "reasoning"), ("id", .str id), ("summary", .arr summary)]

def summaryText (text : String) : Json :=
  Json.mkObj [("type", .str "summary_text"), ("text", .str text)]

def messageItem (id status : String) (content : List Json) : Json :=
  Json.mkObj [("type", .str "message"), ("id", .str id), ("status", .str status),
    ("role", .str "assistant"), ("content", .arr content)]

def functionCallItem (id : String) (call : OutputCall) : Json :=
  Json.mkObj [("type", .str "function_call"), ("id", .str id), ("call_id", .str call.callId),
    ("name", .str call.name), ("arguments", .str call.args), ("status", .str "completed")]

/-- Close the reasoning item, once. -/
def closeReasoning (e : OpenAiResponsesStreamEncoder) :
    List SseFrame × OpenAiResponsesStreamEncoder :=
  if !e.reasoningOpen || e.reasoningItem.isSome then ([], e)
  else
    let item := reasoningItemJson e.reasoningId [summaryText e.reasoning]
    ([frame "response.reasoning_summary_text.done"
        [("item_id", .str e.reasoningId), ("output_index", Json.ofNat e.outputIndex),
          ("summary_index", Json.ofNat 0), ("text", .str e.reasoning)],
      itemFrame "response.output_item.done" e.outputIndex item],
      { e with reasoningItem := some item, outputIndex := e.outputIndex + 1 })

def created (e : OpenAiResponsesStreamEncoder) : SseFrame :=
  frame "response.created"
    [("response", Json.mkObj
      [("id", .str e.responseId), ("object", .str "response"), ("status", .str "in_progress"),
        ("model", .str e.model), ("output", .arr [])])]

/-- The tool call being assembled joins the finished ones. -/
def takeTool (e : OpenAiResponsesStreamEncoder) : OpenAiResponsesStreamEncoder :=
  { e with toolCalls := e.toolCalls ++ e.curTool.toList, curTool := none }

/-- The frames that close the message item, and the item. -/
def closeText (e : OpenAiResponsesStreamEncoder) :
    List SseFrame × List Json × OpenAiResponsesStreamEncoder :=
  if e.textOpen then
    let item := messageItem e.itemId "completed" [outputText e.text]
    ([frame "response.output_text.done"
        [("item_id", .str e.itemId), ("output_index", Json.ofNat e.outputIndex),
          ("content_index", Json.ofNat 0), ("text", .str e.text)],
      frame "response.content_part.done"
        [("item_id", .str e.itemId), ("output_index", Json.ofNat e.outputIndex),
          ("content_index", Json.ofNat 0), ("part", outputText e.text)],
      itemFrame "response.output_item.done" e.outputIndex item],
      [item], { e with outputIndex := e.outputIndex + 1 })
  else ([], [], e)

/-- The frames and the items of the tool calls, from an output index and a count of draws on. -/
def toolItems (newId : String → ℕ → String) (outputIndex drawn : ℕ) :
    List OutputCall → List SseFrame × List Json
  | [] => ([], [])
  | call :: calls =>
      let item := functionCallItem (newId "fc" drawn) call
      let (frames, items) := toolItems newId (outputIndex + 1) (drawn + 1) calls
      (itemFrame "response.output_item.added" outputIndex item ::
        itemFrame "response.output_item.done" outputIndex item :: frames, item :: items)

def completed (e : OpenAiResponsesStreamEncoder) (output : List Json) : SseFrame :=
  frame "response.completed"
    [("response", Json.mkObj
      ([("id", .str e.responseId), ("object", .str "response"), ("status", .str e.status),
          ("model", .str e.model), ("output", .arr output),
          ("usage", responsesUsageJson e.usage)] ++
        (e.usage.energy.map fun energy => ("energy", energyUsageJson energy)).toList))]

/-- Close reasoning, text and tool items, and complete the response. -/
def finish (newId : String → ℕ → String) (e : OpenAiResponsesStreamEncoder) :
    List SseFrame × OpenAiResponsesStreamEncoder :=
  let (reasoningFrames, e) := e.closeReasoning
  let (textFrames, textItems, e) := e.closeText
  let e := e.takeTool
  let (toolFrames, items) := toolItems newId e.outputIndex e.drawn e.toolCalls
  let e := { e with
    outputIndex := e.outputIndex + e.toolCalls.length
    drawn := e.drawn + e.toolCalls.length }
  (reasoningFrames ++ textFrames ++ toolFrames ++
    [e.completed (e.reasoningItem.toList ++ textItems ++ items)], e)

/-- The frames that open the message item and its text part. -/
def openText (e : OpenAiResponsesStreamEncoder) :
    List SseFrame × OpenAiResponsesStreamEncoder :=
  if e.textOpen then ([], e)
  else
    ([itemFrame "response.output_item.added" e.outputIndex
        (messageItem e.itemId "in_progress" []),
      frame "response.content_part.added"
        [("item_id", .str e.itemId), ("output_index", Json.ofNat e.outputIndex),
          ("content_index", Json.ofNat 0), ("part", outputText "")]],
      { e with textOpen := true })

/-- The frames that open the reasoning item and its summary part. -/
def openReasoning (e : OpenAiResponsesStreamEncoder) :
    List SseFrame × OpenAiResponsesStreamEncoder :=
  if e.reasoningOpen then ([], e)
  else
    ([itemFrame "response.output_item.added" e.outputIndex (reasoningItemJson e.reasoningId []),
      frame "response.reasoning_summary_part.added"
        [("item_id", .str e.reasoningId), ("output_index", Json.ofNat e.outputIndex),
          ("summary_index", Json.ofNat 0), ("part", summaryText "")]],
      { e with reasoningOpen := true })

/-- The frames of one canonical event. -/
def encode (newId : String → ℕ → String) (e : OpenAiResponsesStreamEncoder)
    (event : AiStreamEvent) : List SseFrame × OpenAiResponsesStreamEncoder :=
  match event with
  | .messageStart .. => ([e.created], e)
  | .serverToolCall id name status =>
      ([frame s!"response.{name}_call.{status}"
        [("item_id", .str id), ("output_index", Json.ofNat e.outputIndex)]], e)
  | .outputImage mediaType data =>
      let (closed, e) := e.closeReasoning
      let item := Json.mkObj
        [("type", .str "image_generation_call"), ("id", .str (newId "img" e.drawn)),
          ("status", .str "completed"), ("result", .str data), ("output_format", .str mediaType)]
      (closed ++ [itemFrame "response.output_item.added" e.outputIndex item,
          itemFrame "response.output_item.done" e.outputIndex item],
        { e with outputIndex := e.outputIndex + 1, drawn := e.drawn + 1 })
  | .citation url title =>
      ([frame "response.output_text.annotation.added"
        [("item_id", .str e.itemId), ("output_index", Json.ofNat e.outputIndex),
          ("content_index", Json.ofNat 0),
          ("annotation", Json.mkObj
            [("type", .str "url_citation"), ("url", .str url),
              ("title", title.elim .null Json.str)])]], e)
  | .textDelta text =>
      let (closed, e) := e.closeReasoning
      let (opened, e) := e.openText
      let e := { e with text := e.text ++ text }
      (closed ++ opened ++ [frame "response.output_text.delta"
        [("item_id", .str e.itemId), ("output_index", Json.ofNat e.outputIndex),
          ("content_index", Json.ofNat 0), ("delta", .str text)]], e)
  | .toolCallStart start =>
      ([], { e.takeTool with
        curTool := some { callId := start.id, name := start.name, args := "" } })
  | .toolCallArgsDelta _ json =>
      ([], { e with curTool := e.curTool.map fun call => { call with args := call.args ++ json } })
  | .toolCallEnd _ => ([], e.takeTool)
  | .usageDelta usage => ([], { e with usage := usage })
  | .messageEnd reason => finish newId { e with status := finishStr reason }
  | .error message _ =>
      ([frame "response.failed"
        [("response", Json.mkObj
          [("id", .str e.responseId), ("status", .str "failed"),
            ("error", Json.mkObj [("message", .str message)])])]],
        { e with status := "failed" })
  | .reasoningDelta text =>
      let (opened, e) := e.openReasoning
      let e := { e with reasoning := e.reasoning ++ text }
      (opened ++ [frame "response.reasoning_summary_text.delta"
        [("item_id", .str e.reasoningId), ("output_index", Json.ofNat e.outputIndex),
          ("summary_index", Json.ofNat 0), ("delta", .str text)]], e)

/-- The frames of a sequence of events. -/
def encodeStream (newId : String → ℕ → String) (e : OpenAiResponsesStreamEncoder) :
    List AiStreamEvent → List SseFrame
  | [] => []
  | event :: events =>
      (e.encode newId event).1 ++ (e.encode newId event).2.encodeStream newId events

end OpenAiResponsesStreamEncoder

/-! ### A whole response to a client -/

/-- An output item, less the identifier it is given. -/
inductive OutputItem where
  | reasoning (text : String)
  | message (text : String) (annotations : List Json)
  | functionCall (call : OutputCall)
  | image (mediaType data : String)
  | serverTool (id name : String) (action : Json)

namespace OutputItem

/-- What the identifier of an item starts with; a server tool has its own. -/
def idKind : OutputItem → String
  | reasoning _ => "rs"
  | message .. => "msg"
  | functionCall _ => "fc"
  | image .. => "img"
  | serverTool .. => ""

def members (newId : String) : OutputItem → List (String × Json)
  | reasoning text =>
      [("type", .str "reasoning"), ("id", .str newId),
        ("summary", .arr [Json.mkObj [("type", .str "summary_text"), ("text", .str text)]])]
  | message text annotations =>
      [("type", .str "message"), ("id", .str newId), ("status", .str "completed"),
        ("role", .str "assistant"),
        ("content", .arr [Json.mkObj [("type", .str "output_text"), ("text", .str text),
          ("annotations", .arr annotations)]])]
  | functionCall call =>
      [("type", .str "function_call"), ("id", .str newId), ("call_id", .str call.callId),
        ("name", .str call.name), ("arguments", .str call.args), ("status", .str "completed")]
  | image mediaType data =>
      [("type", .str "image_generation_call"), ("id", .str newId), ("status", .str "completed"),
        ("result", .str data), ("output_format", .str mediaType)]
  | serverTool id name action =>
      [("type", .str s!"{name}_call"), ("id", .str id), ("status", .str "completed"),
        ("action", action)]

def json (newId : String) (item : OutputItem) : Json := Json.mkObj (item.members newId)

end OutputItem

/-- The citations of a message, which annotate its text. -/
def urlCitations (content : List ContentPart) : List Json :=
  content.filterMap fun
    | .citation url title _ => some (Json.mkObj
        [("type", .str "url_citation"), ("url", .str url), ("title", title.elim .null Json.str)])
    | _ => none

/-- The items of a response: the reasoning, the answer, and then the rest. -/
def responseItems (toJsonString : Json → String) (resp : AiResponse) : List OutputItem :=
  (resp.message.content.filterMap fun
    | .reasoning text _ => if text = "" then none else some (OutputItem.reasoning text)
    | _ => none) ++
  (if resp.message.text = "" then []
    else [OutputItem.message resp.message.text (urlCitations resp.message.content)]) ++
  resp.message.content.filterMap fun
    | .toolUse id name args =>
        some (.functionCall { callId := id, name := name, args := toJsonString args })
    | .image (.inlineBase64 mediaType data) _ => some (.image mediaType data)
    | .serverToolUse id name args => some (.serverTool id name args)
    | _ => none

/-- The Responses object of a whole response. -/
def responseToOpenAiResponses (newId : String → ℕ → String) (toJsonString : Json → String)
    (resp : AiResponse) : Json :=
  Json.mkObj
    ([("id", .str resp.id), ("object", .str "response"), ("status", .str "completed"),
        ("model", .str resp.model),
        ("output", .arr ((responseItems toJsonString resp).mapIdx fun n item =>
          item.json (newId item.idKind n))),
        ("usage", responsesUsageJson resp.usage)] ++
      (resp.usage.energy.map fun energy => ("energy", energyUsageJson energy)).toList)

end Switchback
