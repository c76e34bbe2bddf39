import Switchback.Lib.Fallible
import Switchback.Protocols.OpenAi

/-!
# Chat Completions requests of clients

A body of a client becomes a canonical request; what is not modelled is passed through.
-/

namespace Switchback

open Lib

section

variable (fromStr : String → Except String Json)

/-- The tool calls of an assistant message. -/
def chatToolUses : Option Json → Except String (List ContentPart)
  | none => .ok []
  | some toolCalls =>
      match toolCalls.asArray with
      | none => .error "`tool_calls` must be an array"
      | some toolCalls => toolCalls.mapM (parseOpenAiToolCall fromStr)

/-- The system text or the canonical message of a message. -/
def chatTurn (message : Json) : Except String (List String × List Message) :=
  match message.getStr "role" with
  | none => .error "message missing string `role`"
  | some "system" | some "developer" => do
      let system ← parseTextContent (message.get "content")
      return (if system = "" then [] else [system], [])
  | some "user" => do
      let content ← parseOpenAiContentParts (message.get "content")
      return ([], [{ role := .user, content := content }])
  | some "assistant" => do
      let text ← parseTextContent (message.get "content")
      let toolUses ← chatToolUses fromStr (message.get "tool_calls")
      return ([], [{ role := .assistant
                     content := (if text = "" then [] else [.text text]) ++ toolUses }])
  | some "tool" =>
      match message.getStr "tool_call_id" with
      | none => .error "tool message missing string `tool_call_id`"
      | some toolUseId => do
          let content ← parseTextContent (message.get "content")
          return ([], [{ role := .tool, content := [.toolResult toolUseId content [] false] }])
  | some other => .error s!"unsupported message role `{other}`"

/-- A tool that is not a function is left out. -/
def chatTool (tool : Json) : Except String (List ToolSpec) :=
  if tool.getStr "type" = some "function" then
    match (tool.get "function").bind Json.asObject with
    | none => .error "tool missing object `function`"
    | some function =>
        match (Json.obj function).getStr "name" with
        | none => .error "tool missing string `function.name`"
        | some name =>
            .ok [{ name := name
                   description := (Json.obj function).getStr "description"
                   parameters := ((Json.obj function).get "parameters").getD .null
                   deferLoading := false }]
  else .ok []

def chatTools : Option Json → Except String (List ToolSpec)
  | none => .ok []
  | some tools =>
      match tools.asArray with
      | none => .error "`tools` must be an array"
      | some tools => (tools.mapM chatTool).map List.flatten

/-- A format of a type that is not known is left out. -/
def chatResponseFormat : Option Json → Except String (Option ResponseFormat)
  | none => .ok none
  | some format =>
      match format.getStr "type" with
      | some "text" => .ok (some .text)
      | some "json_object" => .ok (some .jsonObject)
      | some "json_schema" =>
          match (format.get "json_schema").bind Json.asObject with
          | none => .error "response_format.json_schema must be an object"
          | some schema =>
              match (Json.obj schema).getStr "name" with
              | none => .error "response_format.json_schema.name missing"
              | some name =>
                  .ok (some (.jsonSchema name (((Json.obj schema).get "schema").getD .null)
                    ((((Json.obj schema).get "strict").bind Json.asBool).getD false)))
      | _ => .ok none

def modeledKeys : List String :=
  ["model", "messages", "tools", "response_format", "stream", "temperature", "max_tokens",
    "max_completion_tokens"]

/-- The output token limit, under its newer name or its older. -/
def chatOutputLimit (body : Json) : Option ℕ :=
  (body.getU64 "max_completion_tokens").or (body.getU64 "max_tokens")

/-- A Chat Completions body as a canonical request, with a fresh identifier. -/
def requestFromOpenAiChat (newId : String → String) (body : Json) : Except String AiRequest := do
  let some model := body.getStr "model" | .error "missing or invalid `model`"
  let some messages := body.getArray "messages" | .error "missing or invalid `messages`"
  let turns ← messages.mapM (chatTurn fromStr)
  let systemChunks := turns.flatMap Prod.fst
  let tools ← chatTools (body.get "tools")
  let responseFormat ← chatResponseFormat (body.get "response_format")
  return {
    id := newId "req"
    model := model
    system := if systemChunks.isEmpty then none else some (Text.join "\n" systemChunks)
    messages := turns.flatMap Prod.snd
    tools := tools
    responseFormat := responseFormat
    stream := ((body.get "stream").bind Json.asBool).getD false
    temperature := ((body.get "temperature").bind Json.asF64).map Fp.convert
    maxOutputTokens := (chatOutputLimit body).filter fun n => n < 2 ^ 32
    passthrough := (body.asObject.getD []).filter fun p => p.1 ∉ modeledKeys }

end

end Switchback
