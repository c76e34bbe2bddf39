import Switchback.Protocols.AnthropicRequest
import Switchback.Protocols.OpenAiWire

/-!
# Messages requests to an upstream

The body of a request for the Messages API: its turns, and the cache breakpoints that they carry.
-/

namespace Switchback

open Lib

def cacheControlWire (hint : CacheHint) : Json :=
  if hint.ttlSeconds.any fun ttl => 3600 ≤ ttl then
    Json.mkObj [("type", .str "ephemeral"), ("ttl", .str "1h")]
  else Json.mkObj [("type", .str "ephemeral")]

/-- A breakpoint on a block; what is not an object stays as it is. -/
def stamp (hint : CacheHint) : Json → Json
  | .obj fields => .obj (OrdMap.insertList "cache_control" (cacheControlWire hint) fields)
  | block => block

/-- A breakpoint on the last block. -/
def stampLast (hint : CacheHint) (blocks : List Json) : List Json :=
  match blocks.getLast? with
  | some last => blocks.dropLast ++ [stamp hint last]
  | none => []

/-! ### Messages -/

def anthropicImageSource : ImageSource → Except String Json
  | .inlineBase64 mediaType data =>
      .ok (Json.mkObj [("type", .str "base64"), ("media_type", .str mediaType),
        ("data", .str data)])
  | .remoteUrl url => .ok (Json.mkObj [("type", .str "url"), ("url", .str url)])
  | .providerFileRef .. =>
      .error "Anthropic file image references require Files API beta header support"

def imageToAnthropicBlock (source : ImageSource) : Except String Json := do
  source.validate
  let source ← anthropicImageSource source
  return Json.mkObj [("type", .str "image"), ("source", source)]

/-- The blocks of a part; reasoning goes back only with its signature. -/
def anthropicWireBlocks (role : Role) : ContentPart → Except String (List Json)
  | .text text =>
      .ok (if text = "" then [] else [Json.mkObj [("type", .str "text"), ("text", .str text)]])
  | .image source _ =>
      if role ≠ .user then .error "Anthropic can only encode image content in user messages"
      else (imageToAnthropicBlock source).map fun block => [block]
  | .toolUse id name args =>
      .ok [Json.mkObj [("type", .str "tool_use"), ("id", .str id), ("name", .str name),
        ("input", args)]]
  | .toolResult toolUseId content _ isError =>
      .ok [Json.mkObj
        ([("type", .str "tool_result"), ("tool_use_id", .str toolUseId),
          ("content", .str content)] ++ if isError then [("is_error", .bool true)] else [])]
  | .reasoning text signature =>
      .ok (signature.elim [] fun signature =>
        [Json.mkObj [("type", .str "thinking"), ("thinking", .str text),
          ("signature", .str signature)]])
  | .citation .. | .serverToolUse .. | .serverToolResult .. => .ok []

def messageContentBlocks (message : Message) : Except String (List Json) :=
  (message.content.mapM (anthropicWireBlocks message.role)).map List.flatten

structure AnthropicMessage where
  role : String
  content : List Json

def AnthropicMessage.toJson (message : AnthropicMessage) : Json :=
  Json.mkObj [("role", .str message.role), ("content", .arr message.content)]

/-- The variables of the loop over the messages: the system text, the messages, and the
breakpoints of messages by their index. -/
structure AnthropicTurns where
  systemChunks : List String
  messages : List AnthropicMessage := []
  messageHints : List (ℕ × CacheHint) := []

/-- A message without blocks is left out, and its breakpoint with it. -/
def AnthropicTurns.push (st : AnthropicTurns) (role : String) (blocks : List Json)
    (hint : Option CacheHint) : AnthropicTurns :=
  if blocks.isEmpty then st
  else
    { st with
      messages := st.messages ++ [{ role := role, content := blocks }]
      messageHints := st.messageHints ++
        (hint.map fun hint => (st.messages.length, hint)).toList }

/-- One round of the loop; tool results are carried in a user turn. -/
def anthropicTurn (st : AnthropicTurns) (message : Message) : Except String AnthropicTurns :=
  match message.role with
  | .system => do
      rejectImageParts message.content "Anthropic system messages"
      return if message.text = "" then st
        else { st with systemChunks := st.systemChunks ++ [message.text] }
  | .assistant => do
      let blocks ← messageContentBlocks message
      return st.push "assistant" blocks message.cacheHint
  | .tool | .user => do
      let blocks ← messageContentBlocks message
      return st.push "user" blocks message.cacheHint

/-- All of them up to four in total, else the last two of the messages. -/
def keptHints (stableHints : ℕ) (messageHints : List (ℕ × CacheHint)) : List (ℕ × CacheHint) :=
  if 4 < stableHints + messageHints.length then messageHints.drop (messageHints.length - 2)
  else messageHints

def setLastBlockCacheControl (messages : List AnthropicMessage) (hint : ℕ × CacheHint) :
    List AnthropicMessage :=
  messages.modify hint.1 fun message =>
    { message with content := stampLast hint.2 message.content }

/-! ### The body -/

def anthropicTool (tool : ToolSpec) : Json :=
  Json.mkObj
    ([("name", Json.str tool.name)] ++
      (tool.description.map fun description => ("description", Json.str description)).toList ++
      [("input_schema", tool.parameters)] ++
      if tool.deferLoading then [("defer_loading", Json.bool true)] else [])

/-- A server tool goes out as the client configured it. -/
def anthropicServerTool (tool : ServerToolSpec) : Except String Json :=
  if tool.protocol ≠ .anthropic then
    .error s!"Anthropic cannot encode {tool.protocol.asStr} server tool `{tool.kind}`"
  else .ok tool.config

def hasAnthropicTools (req : AiRequest) : Bool := !req.tools.isEmpty || !req.serverTools.isEmpty

def defaultMaxTokens : ℕ := 4096

/-- The string, or with a breakpoint one block. -/
def anthropicSystem (hint : Option CacheHint) (text : String) : Json :=
  match hint with
  | some hint =>
      .arr [Json.mkObj [("type", .str "text"), ("text", .str text),
        ("cache_control", cacheControlWire hint)]]
  | none => .str text

def anthropicTools (hint : Option CacheHint) (tools : List Json) : List Json :=
  match hint with
  | some hint => stampLast hint tools
  | none => tools

/-- The members that are set; a temperature that is not a number is left out. -/
def anthropicMembers (req : AiRequest) (upstreamModel : String) (stream : Bool)
    (turns : AnthropicTurns) (serverTools : List Json) : List (String × Json) :=
  let toolsHint := req.toolsCacheHint.filter fun _ => hasAnthropicTools req
  let stableHints := req.systemCacheHint.toList.length + toolsHint.toList.length
  let messages := (keptHints stableHints turns.messageHints).foldl setLastBlockCacheControl
    turns.messages
  let system : List (String × Json) :=
    if turns.systemChunks.isEmpty then []
    else [("system", anthropicSystem req.systemCacheHint (Text.join "\n" turns.systemChunks))]
  let tools : List (String × Json) :=
    if hasAnthropicTools req then
      [("tools", .arr (anthropicTools toolsHint (req.tools.map anthropicTool ++ serverTools)))]
    else []
  [("model", .str upstreamModel),
    ("max_tokens", Json.ofNat (req.maxOutputTokens.getD defaultMaxTokens)),
    ("stream", .bool stream), ("messages", .arr (messages.map AnthropicMessage.toJson))] ++
    system ++ tools ++ temperatureField req.temperature

def requestToAnthropicWire (req : AiRequest) (upstreamModel : String) (stream : Bool) :
    Except String Json := do
  req.validateCanonical
  let turns ← req.messages.foldlM anthropicTurn
    { systemChunks := (req.system.filter fun system => system ≠ "").toList }
  let serverTools ← req.serverTools.mapM anthropicServerTool
  let body := OrdMap.ofList (anthropicMembers req upstreamModel stream turns serverTools)
  return .obj (body.orInsertAll ((req.protocolPassthrough.get anthropicProtocol).getD [])).entries

theorem nodup_anthropicMembers (req : AiRequest) (upstreamModel : String) (stream : Bool)
    (turns : AnthropicTurns) (serverTools : List Json) :
    ((anthropicMembers req upstreamModel stream turns serverTools).map Prod.fst).Nodup := by
  have hkeys : ((anthropicMembers req upstreamModel stream turns serverTools).map
      Prod.fst).Sublist (["model", "max_tokens", "stream", "messages"] ++ ["system"] ++
        ["tools"] ++ ["temperature"]) := by
    unfold anthropicMembers
    simp only [List.map_append]
    refine (((List.Sublist.refl _).append (keys_if _ _ _)).append ?_).append
      (keys_temperatureField _)
    split
    · exact List.Sublist.refl _
    · exact List.nil_sublist _
  exact List.Nodup.sublist hkeys (by decide)

theorem requestToAnthropicWire_eq_ok_iff {req : AiRequest} {upstreamModel : String} {stream : Bool}
    {body : Json} :
    requestToAnthropicWire req upstreamModel stream = .ok body ↔
      req.validateCanonical = .ok () ∧
      ∃ turns, req.messages.foldlM anthropicTurn
          { systemChunks := (req.system.filter fun system => system ≠ "").toList } = .ok turns ∧
        ∃ serverTools, req.serverTools.mapM anthropicServerTool = .ok serverTools ∧
          body = .obj ((OrdMap.ofList (anthropicMembers req upstreamModel stream turns
            serverTools)).orInsertAll
              ((req.protocolPassthrough.get anthropicProtocol).getD [])).entries := by
  unfold requestToAnthropicWire
  simp only [bind_eq_ok_iff]
  constructor
  · rintro ⟨⟨⟩, hvalid, turns, hturns, tools, htools, hbody⟩
    exact ⟨hvalid, turns, hturns, tools, htools, (Except.ok.inj hbody).symm⟩
  · rintro ⟨hvalid, turns, hturns, tools, htools, rfl⟩
    exact ⟨(), hvalid, turns, hturns, tools, htools, rfl⟩

theorem get_anthropicBody (req : AiRequest) (upstreamModel : String) (stream : Bool)
    (turns : AnthropicTurns) (serverTools : List Json) (passthrough : List (String × Json))
    (k : String) :
    Json.get k (.obj ((OrdMap.ofList (anthropicMembers req upstreamModel stream turns
      serverTools)).orInsertAll passthrough).entries) =
        (OrdMap.getList k (anthropicMembers req upstreamModel stream turns serverTools)).or
          (OrdMap.getList k passthrough) := by
  show ((OrdMap.ofList _).orInsertAll _).get k = _
  rw [OrdMap.get_orInsertAll, OrdMap.get_ofList (nodup_anthropicMembers _ _ _ _ _)]

end Switchback
