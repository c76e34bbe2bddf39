import Switchback.Protocols.Responses

/-!
# The Responses stream of an upstream

Nothing is emitted when the upstream ends.
-/

namespace Switchback

open Lib

/-- The frames of a Responses stream that the decoder reads. -/
inductive ResponsesFrameKind where
  | created
  | outputTextDelta
  | reasoningDelta
  | outputItemAdded
  | argumentsDelta
  | argumentsDone
  | completed
  | failed
  | annotationAdded
  | imageCompleted
  | serverTool (name status : String)
  | other
  deriving DecidableEq

/-- The life cycle frames of the tools a provider runs, `response.<name>_call.<status>`. -/
def serverToolFrame (kind : String) : Option (String × String) :=
  if Text.startsWith "response." kind && Text.contains "_call." kind &&
      (Text.contains "web_search" kind || Text.contains "code_interpreter" kind ||
        Text.contains "file_search" kind) then
    (Text.stripLit "response." kind).bind (Text.splitOnce "_call.")
  else none

def responsesFrameKind (frame : Json) : ResponsesFrameKind :=
  match frame.getStr "type" with
  | some "response.created" => .created
  | some "response.output_text.delta" => .outputTextDelta
  | some "response.reasoning_summary_text.delta" => .reasoningDelta
  | some "response.reasoning_text.delta" => .reasoningDelta
  | some "response.output_item.added" => .outputItemAdded
  | some "response.function_call_arguments.delta" => .argumentsDelta
  | some "response.function_call_arguments.done" => .argumentsDone
  | some "response.completed" => .completed
  | some "response.failed" => .failed
  | some "response.output_text.annotation.added" => .annotationAdded
  | some "response.image_generation_call.completed" => .imageCompleted
  | some kind => (serverToolFrame kind).elim .other fun p => .serverTool p.1 p.2
  | none => .other

/-- An index beyond 32 bits is zero. -/
def responsesOutputIndex (frame : Json) : ℕ :=
  ((frame.getU64 "output_index").filter fun value => value < 2 ^ 32).getD 0

/-- The string at a path. -/
def pointerStr (path : List String) (frame : Json) : Option String :=
  (frame.pointer path).bind Json.asStr

/-- The call that an added `function_call` item opens. -/
def itemCall (frame : Json) : Option ToolCallStart :=
  if pointerStr ["item", "type"] frame = some "function_call" then
    some
      { index := responsesOutputIndex frame
        id := (((frame.pointer ["item", "call_id"]).or (frame.pointer ["item", "id"])).bind
          Json.asStr).getD ""
        name := (pointerStr ["item", "name"] frame).getD "" }
  else none

structure OpenAiResponsesDecoder where
  model : String
  toolIndices : List ℕ := []
  toolArgsStreamed : List ℕ := []

namespace OpenAiResponsesDecoder

/-- The usage of a completed response; the source parses it as part of a response without
output. -/
def completedUsage (frame : Json) : Usage :=
  match frame.pointer ["response", "usage"] with
  | none => {}
  | some usage =>
      parseResponsesUsage (some usage)
        (some (((frame.pointer ["response", "energy"]).or
          (frame.pointer ["response", "usage", "energy"])).getD .null))

/-- An item opens a call once; some upstreams send the first arguments along. -/
def openCall (d : OpenAiResponsesDecoder) (frame : Json) (start : ToolCallStart) :
    List AiStreamEvent × OpenAiResponsesDecoder :=
  if start.index ∈ d.toolIndices then ([], d)
  else
    let d := { d with toolIndices := d.toolIndices.insert start.index }
    match (pointerStr ["item", "arguments"] frame).filter fun args => args ≠ "" with
    | some args =>
        ([.toolCallStart start, .toolCallArgsDelta start.index args],
          { d with toolArgsStreamed := d.toolArgsStreamed.insert start.index })
    | none => ([.toolCallStart start], d)

/-- The end of a call; the arguments go out here when no fragment of them did. -/
def closeCall (d : OpenAiResponsesDecoder) (frame : Json) : List AiStreamEvent :=
  let index := responsesOutputIndex frame
  if index ∈ d.toolIndices then
    (if index ∈ d.toolArgsStreamed then []
      else ((frame.getStr "arguments").filter fun args => args ≠ "").toList.map
        (.toolCallArgsDelta index)) ++ [.toolCallEnd index]
  else []

def decode (d : OpenAiResponsesDecoder) (frame : Json) :
    List AiStreamEvent × OpenAiResponsesDecoder :=
  match responsesFrameKind frame with
  | .created =>
      ([.messageStart ((pointerStr ["response", "id"] frame).getD "resp")
        ((pointerStr ["response", "model"] frame).getD d.model)], d)
  | .outputTextDelta => ((frame.getStr "delta").toList.map .textDelta, d)
  | .reasoningDelta => ((frame.getStr "delta").toList.map .reasoningDelta, d)
  | .outputItemAdded => (itemCall frame).elim ([], d) (d.openCall frame)
  | .argumentsDelta =>
      match frame.getStr "delta" with
      | some delta =>
          let index := responsesOutputIndex frame
          ([.toolCallArgsDelta index delta],
            { d with toolArgsStreamed := d.toolArgsStreamed.insert index })
      | none => ([], d)
  | .argumentsDone => (d.closeCall frame, d)
  | .completed => ([.usageDelta (completedUsage frame), .messageEnd .stop], d)
  | .failed =>
      ([.error ((pointerStr ["response", "error", "message"] frame).getD
        "Responses stream failed") .serverError], d)
  | .annotationAdded =>
      ((pointerStr ["annotation", "url"] frame).toList.map fun url =>
        .citation url (pointerStr ["annotation", "title"] frame), d)
  | .imageCompleted =>
      ((((frame.get "result").or (frame.pointer ["item", "result"])).bind Json.asStr).toList.map
        (.outputImage ((frame.getStr "output_format").getD "image/png")), d)
  | .serverTool name status =>
      ([.serverToolCall ((((frame.get "item_id").or (frame.pointer ["item", "id"])).bind
        Json.asStr).getD "") name status], d)
  | .other => ([], d)

def finish (_ : OpenAiResponsesDecoder) : List AiStreamEvent := []

/-- The events of a sequence of frames and of the end after it. -/
def decodeStream (d : OpenAiResponsesDecoder) : List Json → List AiStreamEvent
  | [] => d.finish
  | frame :: frames => (d.decode frame).1 ++ (d.decode frame).2.decodeStream frames

end OpenAiResponsesDecoder

end Switchback
