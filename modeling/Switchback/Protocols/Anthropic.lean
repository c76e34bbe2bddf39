import Switchback.Protocols.OpenAi

/-!
# Anthropic Messages

A frame is its event name and its JSON payload.
-/

namespace Switchback

open Lib

/-- One SSE frame. -/
structure SseFrame where
  event : String
  data : Json

/-- `stop_reason` as a finish reason. -/
def stopReasonToFinish : Option String → FinishReason
  | some "end_turn" | some "stop_sequence" => .stop
  | some "max_tokens" => .length
  | some "tool_use" => .toolCalls
  | _ => .stop

/-- A finish reason as `stop_reason`. -/
def finishToStopReason : FinishReason → String
  | .stop => "end_turn"
  | .length => "max_tokens"
  | .toolCalls => "tool_use"
  | .contentFilter => "end_turn"
  | .error => "end_turn"

/-- The counts of a usage object. -/
def usageFromJson (usage : Option Json) : Usage where
  inputTokens := (usage.bind (Json.getU64 "input_tokens")).getD 0
  outputTokens := (usage.bind (Json.getU64 "output_tokens")).getD 0
  cachedInputTokens := (usage.bind (Json.getU64 "cache_read_input_tokens")).getD 0

/-- The part of one content block; unknown blocks are ignored. -/
def parseAnthropicBlock (block : Json) : Except String (Option ContentPart) :=
  match block.getStr "type" with
  | some "text" => .ok (((block.getStr "text").filter fun text => text ≠ "").map .text)
  | some "tool_use" =>
      match block.getStr "id" with
      | none => .error "tool_use block missing string `id`"
      | some id =>
          match block.getStr "name" with
          | none => .error "tool_use block missing string `name`"
          | some name => .ok (some (.toolUse id name ((block.get "input").getD .null)))
  | some "thinking" =>
      .ok (((block.getStr "thinking").filter fun text => text ≠ "").map fun text =>
        .reasoning text (block.getStr "signature"))
  | _ => .ok none

/-- A whole response. -/
def parseAnthropicResponse (newId : String → String) (body : Json) :
    Except String AiResponse := do
  let some content := body.getArray "content" | .error "missing array `content`"
  let parts ← content.mapM parseAnthropicBlock
  return {
    id := (body.getStr "id").getD (newId "resp")
    model := (body.getStr "model").getD ""
    message := { role := .assistant, content := parts.filterMap fun part => part }
    finishReason := stopReasonToFinish (body.getStr "stop_reason")
    usage := usageFromJson (body.get "usage") }

/-! ### The upstream stream -/

/-- The frames of a Messages stream that the decoder reads. -/
inductive MessagesFrameKind where
  | messageStart
  | contentBlockStart
  | contentBlockDelta
  | contentBlockStop
  | messageDelta
  | messageStop
  | other
  deriving DecidableEq

def messagesFrameKind (data : Json) : MessagesFrameKind :=
  match data.getStr "type" with
  | some "message_start" => .messageStart
  | some "content_block_start" => .contentBlockStart
  | some "content_block_delta" => .contentBlockDelta
  | some "content_block_stop" => .contentBlockStop
  | some "message_delta" => .messageDelta
  | some "message_stop" => .messageStop
  | _ => .other

/-- The block a frame is about; an index beyond 32 bits is zero. -/
def indexOf (data : Json) : ℕ := ((data.getU64 "index").filter fun value => value < 2 ^ 32).getD 0

/-- The call that a `tool_use` block opens. -/
def blockCall (data : Json) : Option ToolCallStart :=
  let block := data.get "content_block"
  if block.bind (Json.getStr "type") = some "tool_use" then
    some
      { index := indexOf data
        id := (block.bind (Json.getStr "id")).getD ""
        name := (block.bind (Json.getStr "name")).getD "" }
  else none

/-- The text that a `text` block opens with. -/
def blockText (data : Json) : Option String :=
  let block := data.get "content_block"
  if block.bind (Json.getStr "type") = some "text" then
    (block.bind (Json.getStr "text")).filter fun text => text ≠ ""
  else none

/-- The content of one delta. -/
def blockDelta (data : Json) : Option AiStreamEvent :=
  let delta := data.get "delta"
  match delta.bind (Json.getStr "type") with
  | some "text_delta" => (delta.bind (Json.getStr "text")).map .textDelta
  | some "input_json_delta" =>
      (delta.bind (Json.getStr "partial_json")).map (.toolCallArgsDelta (indexOf data))
  | some "thinking_delta" => (delta.bind (Json.getStr "thinking")).map .reasoningDelta
  | _ => none

/-- The decoder remembers which blocks are tool calls. -/
structure AnthropicStreamDecoder where
  started : Bool := false
  ended : Bool := false
  toolBlocks : List ℕ := []
  stopReason : Option FinishReason := none
  usage : Usage := {}

namespace AnthropicStreamDecoder

/-- The stop reason and the output tokens of a `message_delta`. -/
def noteDelta (d : AnthropicStreamDecoder) (data : Json) : AnthropicStreamDecoder :=
  { d with
    stopReason := ((data.get "delta").bind (Json.getStr "stop_reason")).elim d.stopReason
      fun reason => some (stopReasonToFinish (some reason))
    usage := ((data.get "usage").bind (Json.getU64 "output_tokens")).elim d.usage
      fun output => { d.usage with outputTokens := output } }

/-- The events of a frame. -/
def decode (d : AnthropicStreamDecoder) (data : Json) :
    List AiStreamEvent × AnthropicStreamDecoder :=
  match messagesFrameKind data with
  | .messageStart =>
      let message := data.get "message"
      ([.messageStart ((message.bind (Json.getStr "id")).getD "")
          ((message.bind (Json.getStr "model")).getD "")],
        { d with started := true, usage := usageFromJson (message.bind (Json.get "usage")) })
  | .contentBlockStart =>
      match blockCall data with
      | some start =>
          ([.toolCallStart start], { d with toolBlocks := d.toolBlocks.insert start.index })
      | none => ((blockText data).toList.map .textDelta, d)
  | .contentBlockDelta => ((blockDelta data).toList, d)
  | .contentBlockStop =>
      (if indexOf data ∈ d.toolBlocks then [.toolCallEnd (indexOf data)] else [], d)
  | .messageDelta => ([.usageDelta (d.noteDelta data).usage], d.noteDelta data)
  | .messageStop => ([.messageEnd (d.stopReason.getD .stop)], { d with ended := true })
  -- pings, errors and unknown frames
  | .other => ([], d)

/-- The end of an upstream that was cut off. -/
def finish (d : AnthropicStreamDecoder) : List AiStreamEvent :=
  if d.started && !d.ended then [.messageEnd (d.stopReason.getD .stop)] else []

/-- The events of a sequence of frames and of the end after it. -/
def decodeStream (d : AnthropicStreamDecoder) : List Json → List AiStreamEvent
  | [] => d.finish
  | data :: frames => (d.decode data).1 ++ (d.decode data).2.decodeStream frames

end AnthropicStreamDecoder

/-! ### The stream to a client -/

/-- The content block that is open, with its index. -/
inductive OpenBlock where
  | text (index : ℕ)
  | reasoning (index : ℕ)
  | tool (index : ℕ)

def OpenBlock.index : OpenBlock → ℕ
  | text i | reasoning i | tool i => i

/-- The encoder between two events. -/
structure AnthropicStreamEncoder where
  id : String
  model : String
  messageStarted : Bool := false
  ended : Bool := false
  openBlock : Option OpenBlock := none
  nextIndex : ℕ := 0
  toolIndexMap : OrdMap ℕ ℕ := OrdMap.empty
  usage : Usage := {}

namespace AnthropicStreamEncoder

def messageStart (e : AnthropicStreamEncoder) : SseFrame where
  event := "message_start"
  data := Json.mkObj
    [("type", .str "message_start"),
      ("message", Json.mkObj
        [("id", .str e.id), ("type", .str "message"), ("role", .str "assistant"),
          ("model", .str e.model), ("content", .arr []), ("stop_reason", .null),
          ("stop_sequence", .null),
          ("usage", Json.mkObj
            [("input_tokens", Json.ofNat e.usage.inputTokens), ("output_tokens", Json.ofNat 0)])])]

def contentBlockStart (index : ℕ) (block : Json) : SseFrame where
  event := "content_block_start"
  data := Json.mkObj
    [("type", .str "content_block_start"), ("index", Json.ofNat index), ("content_block", block)]

def contentBlockDelta (index : ℕ) (delta : Json) : SseFrame where
  event := "content_block_delta"
  data := Json.mkObj
    [("type", .str "content_block_delta"), ("index", Json.ofNat index), ("delta", delta)]

def contentBlockStop (index : ℕ) : SseFrame where
  event := "content_block_stop"
  data := Json.mkObj [("type", .str "content_block_stop"), ("index", Json.ofNat index)]

def textBlock : Json := Json.mkObj [("type", .str "text"), ("text", .str "")]

def thinkingBlock : Json := Json.mkObj [("type", .str "thinking"), ("thinking", .str "")]

def toolUseBlock (id name : String) : Json :=
  Json.mkObj [("type", .str "tool_use"), ("id", .str id), ("name", .str name),
    ("input", Json.mkObj [])]

def textDelta (text : String) : Json :=
  Json.mkObj [("type", .str "text_delta"), ("text", .str text)]

def thinkingDelta (text : String) : Json :=
  Json.mkObj [("type", .str "thinking_delta"), ("thinking", .str text)]

def inputJsonDelta (json : String) : Json :=
  Json.mkObj [("type", .str "input_json_delta"), ("partial_json", .str json)]

def messageDelta (finish : FinishReason) (usage : Usage) : SseFrame where
  event := "message_delta"
  data := Json.mkObj
    [("type", .str "message_delta"),
      ("delta", Json.mkObj
        [("stop_reason", .str (finishToStopReason finish)), ("stop_sequence", .null)]),
      ("usage", Json.mkObj [("output_tokens", Json.ofNat usage.outputTokens)])]

def messageStop : SseFrame where
  event := "message_stop"
  data := Json.mkObj [("type", .str "message_stop")]

/-- `message_start` before anything else. -/
def ensureStarted (e : AnthropicStreamEncoder) : List SseFrame × AnthropicStreamEncoder :=
  if e.messageStarted then ([], e) else ([e.messageStart], { e with messageStarted := true })

/-- The end of the open block. -/
def closeBlock (e : AnthropicStreamEncoder) : List SseFrame × AnthropicStreamEncoder :=
  match e.openBlock with
  | none => ([], e)
  | some block => ([contentBlockStop block.index], { e with openBlock := none })

/-- Close what is open and open `block`, with its index counted up. -/
def startBlock (e : AnthropicStreamEncoder) (kind : ℕ → OpenBlock) (block : Json) :
    List SseFrame × AnthropicStreamEncoder :=
  let (closed, e) := e.closeBlock
  (closed ++ [contentBlockStart e.nextIndex block],
    { e with openBlock := some (kind e.nextIndex), nextIndex := e.nextIndex + 1 })

/-- A delta of the open text block, which is opened first if need be. -/
def encodeText (e : AnthropicStreamEncoder) (text : String) :
    List SseFrame × AnthropicStreamEncoder :=
  let (frames, e) :=
    match e.openBlock with
    | some (.text _) => ([], e)
    | _ => e.startBlock .text textBlock
  let index := match e.openBlock with
    | some (.text i) => i
    | _ => 0
  (frames ++ [contentBlockDelta index (textDelta text)], e)

/-- A delta of the open thinking block, which is opened first if need be. -/
def encodeReasoning (e : AnthropicStreamEncoder) (text : String) :
    List SseFrame × AnthropicStreamEncoder :=
  let (frames, e) :=
    match e.openBlock with
    | some (.reasoning _) => ([], e)
    | _ => e.startBlock .reasoning thinkingBlock
  let index := match e.openBlock with
    | some (.reasoning i) => i
    | _ => 0
  (frames ++ [contentBlockDelta index (thinkingDelta text)], e)

/-- Run `f` on the started message. -/
def started (e : AnthropicStreamEncoder)
    (f : AnthropicStreamEncoder → List SseFrame × AnthropicStreamEncoder) :
    List SseFrame × AnthropicStreamEncoder :=
  let (start, e) := e.ensureStarted
  let (frames, e) := f e
  (start ++ frames, e)

/-- The frames of one canonical event. -/
def encode (e : AnthropicStreamEncoder) (event : AiStreamEvent) :
    List SseFrame × AnthropicStreamEncoder :=
  if e.ended then ([], e)
  else
    match event with
    | .messageStart id model =>
        { e with
          id := if e.id = "" then id else e.id
          model := if e.model = "" then model else e.model }.ensureStarted
    | .outputImage .. | .citation .. | .serverToolCall .. => ([], e)
    | .textDelta text => if text = "" then ([], e) else e.started fun e => e.encodeText text
    | .reasoningDelta text => e.started fun e => e.encodeReasoning text
    | .toolCallStart tool =>
        e.started fun e =>
          let (frames, e') := e.startBlock .tool (toolUseBlock tool.id tool.name)
          (frames, { e' with toolIndexMap := e'.toolIndexMap.insert tool.index e.nextIndex })
    | .toolCallArgsDelta index json =>
        e.started fun e =>
          ([contentBlockDelta ((e.toolIndexMap.get index).getD 0) (inputJsonDelta json)], e)
    | .toolCallEnd index =>
        match e.openBlock with
        | some (.tool openIndex) =>
            if (e.toolIndexMap.get index).getD openIndex = openIndex then e.closeBlock
            else ([], e)
        | _ => ([], e)
    | .usageDelta usage => ([], { e with usage := usage })
    | .messageEnd finish =>
        e.started fun e =>
          let (closed, e) := e.closeBlock
          (closed ++ [messageDelta finish e.usage, messageStop], { e with ended := true })
    | .error .. => ([], e)

/-- The frames of a sequence of events. -/
def encodeStream (e : AnthropicStreamEncoder) : List AiStreamEvent → List SseFrame
  | [] => []
  | event :: events => (e.encode event).1 ++ (e.encode event).2.encodeStream events

end AnthropicStreamEncoder

end Switchback
