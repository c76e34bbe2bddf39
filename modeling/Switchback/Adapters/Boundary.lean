import Switchback.Core.Ir

/-!
# The adapter boundary

Every adapter answers with a stream of canonical events.  A response that did not come as a
stream is replayed as one.
-/

namespace Switchback

open Lib

/-- An execution failure, already classified. -/
structure AdapterError where
  errorClass : ErrorClass
  message : String
  status : Option ℕ := none
  retryAfterMs : Option ℕ := none

def AdapterError.shouldFallback (e : AdapterError) : Bool := e.errorClass.shouldFallback

/-- The events of the tool uses, numbered from `index` with a 32-bit counter. -/
def toolUseEvents (toJsonString : Json → String) : ℕ → List ContentPart → List AiStreamEvent
  | _, [] => []
  | index, .toolUse id name args :: parts =>
      .toolCallStart { index := index, id := id, name := name } ::
        .toolCallArgsDelta index (toJsonString args) :: .toolCallEnd index ::
        toolUseEvents toJsonString ((index + 1) % 2 ^ 32) parts
  | index, _ :: parts => toolUseEvents toJsonString index parts

/-- Replay a response as the stream it stands for. -/
def responseToEvents (toJsonString : Json → String) (resp : AiResponse) : List AiStreamEvent :=
  [AiStreamEvent.messageStart resp.id resp.model] ++
    (if resp.message.text = "" then [] else [AiStreamEvent.textDelta resp.message.text]) ++
    toolUseEvents toJsonString 0 resp.message.content ++
    [AiStreamEvent.usageDelta resp.usage, AiStreamEvent.messageEnd resp.finishReason]

end Switchback
