import Switchback.Core.Ir

/-!
# Gemini GenerateContent

Tool calls have no identifier of their own and are numbered.
-/

namespace Switchback

open Lib

def finishReasonFromGemini (reason : Option String) (hadToolCall : Bool) : FinishReason :=
  if hadToolCall then .toolCalls
  else
    match reason with
    | some "STOP" => .stop
    | some "MAX_TOKENS" => .length
    | some "SAFETY" | some "BLOCKLIST" | some "PROHIBITED_CONTENT" => .contentFilter
    | _ => .stop

def usageFromGemini (metadata : Option Json) : Usage where
  inputTokens := (metadata.bind (Json.getU64 "promptTokenCount")).getD 0
  outputTokens := (metadata.bind (Json.getU64 "candidatesTokenCount")).getD 0
  cachedInputTokens := (metadata.bind (Json.getU64 "cachedContentTokenCount")).getD 0

/-- The parts of a candidate, the tool calls numbered with a 32-bit counter. -/
def parseGeminiParts : ℕ → List Json → List ContentPart
  | _, [] => []
  | counter, part :: parts =>
      match part.getStr "text" with
      | some text => (if text = "" then [] else [.text text]) ++ parseGeminiParts counter parts
      | none =>
          match (part.get "functionCall").filter fun call => call.asObject.isSome with
          | some call =>
              .toolUse s!"call_{counter}" ((call.getStr "name").getD "")
                ((call.get "args").getD .null) :: parseGeminiParts ((counter + 1) % 2 ^ 32) parts
          | none => parseGeminiParts counter parts

def parseGeminiResponse (newId : String → String) (body : Json) : Except String AiResponse :=
  match (body.getArray "candidates").bind List.head? with
  | none => .error "missing `candidates[0]`"
  | some candidate =>
      let content := parseGeminiParts 0
        (((candidate.get "content").bind (Json.getArray "parts")).getD [])
      .ok
        { id := (body.getStr "responseId").getD (newId "resp")
          model := (body.getStr "modelVersion").getD ""
          message := { role := .assistant, content := content }
          finishReason := finishReasonFromGemini (candidate.getStr "finishReason")
            (content.any ContentPart.isToolUse)
          usage := usageFromGemini (body.get "usageMetadata") }

/-! ### The stream -/

structure GeminiStreamDecoder where
  model : String
  started : Bool := false
  ended : Bool := false
  toolIndex : ℕ := 0
  stopReason : Option FinishReason := none
  usage : Usage := {}

namespace GeminiStreamDecoder

variable (toJsonString : Json → String)

/-- A call goes out whole. -/
def callEvents (index : ℕ) (call : Json) : List AiStreamEvent :=
  [.toolCallStart { index := index, id := s!"call_{index}", name := (call.getStr "name").getD "" },
    .toolCallArgsDelta index (toJsonString ((call.get "args").getD .null)),
    .toolCallEnd index]

/-- The loop over the parts of a frame. -/
def decodeParts (d : GeminiStreamDecoder) : List Json → List AiStreamEvent × GeminiStreamDecoder
  | [] => ([], d)
  | part :: parts =>
      match part.getStr "text" with
      | some text =>
          let (events, d) := d.decodeParts parts
          ((if text = "" then [] else [.textDelta text]) ++ events, d)
      | none =>
          match (part.get "functionCall").filter fun call => call.asObject.isSome with
          | some call =>
              let (events, d') := { d with
                toolIndex := (d.toolIndex + 1) % 2 ^ 32
                stopReason := some .toolCalls }.decodeParts parts
              (callEvents toJsonString d.toolIndex call ++ events, d')
          | none => d.decodeParts parts

/-- The finish reason of a candidate; tool calls before it win. -/
def noteFinishReason (d : GeminiStreamDecoder) (candidate : Json) : GeminiStreamDecoder :=
  match candidate.getStr "finishReason" with
  | none => d
  | some reason =>
      { d with
        stopReason := some
          (finishReasonFromGemini (some reason) (d.stopReason = some .toolCalls)) }

def decode (d : GeminiStreamDecoder) (chunk : Json) : List AiStreamEvent × GeminiStreamDecoder :=
  let start : List AiStreamEvent :=
    if d.started then []
    else [.messageStart ((chunk.getStr "responseId").getD "")
      ((chunk.getStr "modelVersion").getD d.model)]
  let d := { d with
    started := true
    usage := (chunk.get "usageMetadata").elim d.usage fun metadata =>
      usageFromGemini (some metadata) }
  match (chunk.getArray "candidates").bind List.head? with
  | none => (start, d)
  | some candidate =>
      let (events, d) := d.decodeParts toJsonString
        (((candidate.get "content").bind (Json.getArray "parts")).getD [])
      (start ++ events, d.noteFinishReason candidate)

/-- The usage and the end of the message. -/
def finish (d : GeminiStreamDecoder) : List AiStreamEvent :=
  if d.ended || !d.started then []
  else [.usageDelta d.usage, .messageEnd (d.stopReason.getD .stop)]

/-- The events of a sequence of frames and of the end after it. -/
def decodeStream (d : GeminiStreamDecoder) : List Json → List AiStreamEvent
  | [] => d.finish
  | chunk :: chunks =>
      (d.decode toJsonString chunk).1 ++ (d.decode toJsonString chunk).2.decodeStream chunks

end GeminiStreamDecoder

end Switchback
