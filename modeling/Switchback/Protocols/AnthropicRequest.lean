import Switchback.Lib.Fallible
import Switchback.Protocols.Anthropic

/-!
# Anthropic Messages requests

A client's Messages body as a canonical request.
-/

namespace Switchback

open Lib

/-- A breakpoint; an unknown time to live stands for the provider's default. -/
def cacheHintFromCacheControl (value : Json) : CacheHint where
  ttlSeconds :=
    match value.getStr "ttl" with
    | some "1h" => some 3600
    | some "5m" => some 300
    | _ => none

/-- The last breakpoint wins. -/
def noteHint (hint : Option CacheHint) (block : Json) : Option CacheHint :=
  (block.get "cache_control").elim hint fun control => some (cacheHintFromCacheControl control)

def imageFromUrl (url : String) : ContentPart :=
  match ContentPart.splitBase64DataUrl url with
  | some (mediaType, data) => .image (.inlineBase64 mediaType data) none
  | none => .image (.remoteUrl url) none

def imageFromAnthropicSource : Option Json → Except String ContentPart
  | none => .error "Anthropic image block missing `source`"
  | some source =>
      match source.getStr "type" with
      | some "base64" =>
          match source.getStr "media_type" with
          | none => .error "Anthropic base64 image missing `media_type`"
          | some mediaType =>
              match source.getStr "data" with
              | none => .error "Anthropic base64 image missing `data`"
              | some data => .ok (ContentPart.imageBase64 mediaType data)
      | some "url" =>
          match source.getStr "url" with
          | none => .error "Anthropic url image missing `url`"
          | some url => .ok (imageFromUrl url)
      | some "file" =>
          match source.getStr "file_id" with
          | none => .error "Anthropic file image missing `file_id`"
          | some fileId => .ok (.image (.providerFileRef (some "anthropic") fileId) none)
      | some other => .error s!"unsupported Anthropic image source `{other}`"
      | none => .error "Anthropic image source missing string `type`"

/-- The text of a tool result, which is a string or a list of blocks. -/
def toolResultText : Option Json → String
  | some (.str s) => s
  | some (.arr blocks) => String.join (blocks.filterMap (Json.getStr "text"))
  | _ => ""

/-! ### Messages -/

/-- The variables of the loop over the messages. -/
structure Intake where
  system : Option String
  messages : List Message := []

/-- A system turn is appended to the system prompt on a line of its own. -/
def appendSystem (system : Option String) (text : String) : Option String :=
  match system with
  | some existing => some (if existing = "" then text else existing ++ "\n" ++ text)
  | none => some text

def systemTurnText : Option Json → String
  | some (.str text) => text
  | some (.arr blocks) =>
      String.join (blocks.filterMap fun block =>
        if block.getStr "type" = some "text" then block.getStr "text" else none)
  | _ => ""

/-- The variables of the loop over the blocks of a user turn. -/
structure UserIntake where
  messages : List Message := []
  contentParts : List ContentPart := []
  hint : Option CacheHint := none

/-- The parts read so far become a user message. -/
def UserIntake.flush (st : UserIntake) : UserIntake :=
  if st.contentParts.isEmpty then st
  else
    { st with
      messages := st.messages ++ [{ role := .user, content := st.contentParts }]
      contentParts := [] }

def userBlock (st : UserIntake) (block : Json) : Except String UserIntake :=
  let st := { st with hint := noteHint st.hint block }
  match block.getStr "type" with
  | some "text" =>
      .ok { st with
        contentParts := st.contentParts ++ (block.getStr "text").toList.map .text }
  | some "image" => do
      let part ← imageFromAnthropicSource (block.get "source")
      return { st with contentParts := st.contentParts ++ [part] }
  | some "tool_result" =>
      let st := st.flush
      match block.getStr "tool_use_id" with
      | none => .error "tool_result missing string `tool_use_id`"
      | some toolUseId =>
          .ok { st with
            messages := st.messages ++
              [{ role := .tool
                 content := [.toolResult toolUseId (toolResultText (block.get "content")) []
                   (((block.get "is_error").bind Json.asBool).getD false)] }] }
  | other =>
      .error ("unsupported Anthropic user content block `" ++ other.getD "unknown" ++
        "`; multimodal content is not supported in this build")

/-- The last message gets the breakpoint. -/
def hintLast (hint : Option CacheHint) (messages : List Message) : List Message :=
  match hint, messages.getLast? with
  | some hint, some last => messages.dropLast ++ [{ last with cacheHint := some hint }]
  | _, _ => messages

def userTurn : Option Json → Except String (List Message)
  | some (.str text) => .ok [{ role := .user, content := [.text text] }]
  | some (.arr blocks) => do
      let st ← blocks.foldlM userBlock {}
      let st := st.flush
      return hintLast st.hint st.messages
  | _ => .ok []

def assistantBlock (block : Json) : Except String (Option ContentPart) :=
  match block.getStr "type" with
  | some "text" => .ok ((block.getStr "text").map .text)
  | some "tool_use" =>
      match block.getStr "id" with
      | none => .error "tool_use missing string `id`"
      | some id =>
          match block.getStr "name" with
          | none => .error "tool_use missing string `name`"
          | some name => .ok (some (.toolUse id name ((block.get "input").getD .null)))
  | other =>
      .error ("unsupported Anthropic assistant content block `" ++ other.getD "unknown" ++ "`")

def assistantTurn : Option Json → Except String Message
  | some (.str text) =>
      .ok { role := .assistant, content := if text = "" then [] else [.text text] }
  | some (.arr blocks) => do
      let parts ← blocks.mapM assistantBlock
      return { role := .assistant, content := parts.filterMap fun part => part,
               cacheHint := blocks.foldl noteHint none }
  | _ => .ok { role := .assistant, content := [] }

/-- One round of the loop over the messages. -/
def intakeMessage (st : Intake) (message : Json) : Except String Intake :=
  match message.getStr "role" with
  | none => .error "message missing string `role`"
  | some "system" =>
      let text := systemTurnText (message.get "content")
      .ok { st with system := if text = "" then st.system else appendSystem st.system text }
  | some "user" => do
      let messages ← userTurn (message.get "content")
      return { st with messages := st.messages ++ messages }
  | some "assistant" => do
      let turn ← assistantTurn (message.get "content")
      return { st with messages := st.messages ++ [turn] }
  | some other => .error s!"unsupported message role `{other}`"

/-! ### The request -/

/-- The system prompt and its breakpoint. -/
def systemField : Option Json → Option String × Option CacheHint
  | some (.str s) => (if s = "" then none else some s, none)
  | some (.arr blocks) =>
      let s := String.join (blocks.filterMap (Json.getStr "text"))
      (if s = "" then none else some s, blocks.foldl noteHint none)
  | _ => (none, none)

/-- A tool with a type runs on the provider. -/
def toolFromAnthropic (tool : Json) : Except String (ToolSpec ⊕ ServerToolSpec) :=
  match tool.getStr "type" with
  | some kind => .ok (.inr { protocol := .anthropic, kind := kind, config := tool })
  | none =>
      match tool.getStr "name" with
      | none => .error "tool missing string `name`"
      | some name =>
          .ok (.inl
            { name := name
              description := tool.getStr "description"
              parameters := (tool.get "input_schema").getD .null
              deferLoading := ((tool.get "defer_loading").bind Json.asBool).getD false })

def anthropicProtocol : String := "anthropic"

def anthropicPassthroughKeys : List String :=
  ["thinking", "tool_choice", "stop_sequences", "top_p", "top_k", "service_tier", "metadata",
    "container", "mcp_servers"]

/-- The parameters that go back to the same protocol only. -/
def anthropicPassthrough (body : Json) : OrdMap String (List (String × Json)) :=
  let kept := anthropicPassthroughKeys.filterMap fun key => (body.get key).map fun v => (key, v)
  if kept.isEmpty then OrdMap.empty
  else OrdMap.empty.insert anthropicProtocol (OrdMap.ofList kept).entries

/-- A Messages body as a canonical request, with a fresh identifier. -/
def requestFromAnthropic (newId : String → String) (body : Json) : Except String AiRequest := do
  let some model := body.getStr "model" | .error "missing or invalid `model`"
  let (system, systemCacheHint) := systemField (body.get "system")
  let some messages := body.getArray "messages" | .error "missing or invalid `messages`"
  let intake ← messages.foldlM intakeMessage { system := system }
  let bodyTools := (body.getArray "tools").getD []
  let tools ← bodyTools.mapM toolFromAnthropic
  return {
    id := newId "req"
    model := model
    system := intake.system
    messages := intake.messages
    tools := tools.filterMap Sum.getLeft?
    serverTools := tools.filterMap Sum.getRight?
    stream := ((body.get "stream").bind Json.asBool).getD false
    maxOutputTokens := (body.getU64 "max_tokens").filter fun n => n < 2 ^ 32
    temperature := ((body.get "temperature").bind Json.asF64).map Fp.convert
    protocolPassthrough := anthropicPassthrough body
    systemCacheHint := systemCacheHint
    toolsCacheHint := bodyTools.foldl noteHint none }

/-- The block of a part; images, results, citations and server tools have none. -/
def anthropicBlock : ContentPart → Option Json
  | .text text => some (Json.mkObj [("type", .str "text"), ("text", .str text)])
  | .toolUse id name args =>
      some (Json.mkObj [("type", .str "tool_use"), ("id", .str id), ("name", .str name),
        ("input", args)])
  | .reasoning text signature =>
      some (Json.mkObj ([("type", .str "thinking"), ("thinking", .str text)] ++
        (signature.map fun s => ("signature", Json.str s)).toList))
  | _ => none

def responseToAnthropic (resp : AiResponse) : Json :=
  Json.mkObj
    [("id", .str resp.id), ("type", .str "message"), ("role", .str "assistant"),
      ("model", .str resp.model),
      ("content", .arr (resp.message.content.filterMap anthropicBlock)),
      ("stop_reason", .str (finishToStopReason resp.finishReason)), ("stop_sequence", .null),
      ("usage", Json.mkObj
        [("input_tokens", Json.ofNat resp.usage.inputTokens),
          ("output_tokens", Json.ofNat resp.usage.outputTokens)])]

end Switchback
