import Switchback.Protocols.AnthropicRequest
import Switchback.Protocols.Surfaces
import Switchback.Runtime.Replay

/-!
# A turn that comes back

A client appends the assistant turn it was given to the conversation and sends it again, either the
content of a whole response or the blocks it put together from a stream.
-/

namespace Switchback

open Lib

/-! ### The appended turn -/

def appendElem (turn : Json) : Json → Json
  | .arr messages => .arr (messages ++ [turn])
  | v => v

/-- The body with one more message. -/
def appendTurn (turn : Json) : Json → Json
  | .obj fields =>
      .obj (fields.map fun p => if p.1 = "messages" then (p.1, appendElem turn p.2) else p)
  | v => v

def assistantMessage (content : List Json) : Json :=
  Json.mkObj [("role", .str "assistant"), ("content", .arr content)]

theorem get_appendTurn (turn : Json) (key : String) (body : Json) :
    (appendTurn turn body).get key =
      if key = "messages" then (body.get key).map (appendElem turn) else body.get key := by
  cases body with
  | obj fields => exact OrdMap.getList_map_snd "messages" key (appendElem turn) fields
  | _ => simp [appendTurn, Json.get]

theorem getStr_appendTurn {key : String} (h : key ≠ "messages") (turn body : Json) :
    (appendTurn turn body).getStr key = body.getStr key := by
  unfold Json.getStr
  rw [get_appendTurn, if_neg h]

variable {body : Json} {newId : String → String} {req : AiRequest} {parts : List ContentPart}

theorem getArray_appendTurn {messages : List Json}
    (h : body.getArray "messages" = some messages) (turn : Json) :
    (appendTurn turn body).getArray "messages" = some (messages ++ [turn]) := by
  unfold Json.getArray at h ⊢
  obtain ⟨v, hv, harr⟩ := Option.bind_eq_some_iff.mp h
  rw [get_appendTurn, if_pos rfl, hv]
  cases v with
  | arr l =>
    obtain rfl : l = messages := Option.some.inj harr
    rfl
  | _ => simp [Json.asArray] at harr

theorem requestFromAnthropic_eq_ok_iff :
    requestFromAnthropic newId body = .ok req ↔
      ∃ model messages intake tools, body.getStr "model" = some model ∧
        body.getArray "messages" = some messages ∧
        messages.foldlM intakeMessage { system := (systemField (body.get "system")).1 } =
          .ok intake ∧
        ((body.getArray "tools").getD []).mapM toolFromAnthropic = .ok tools ∧
        req =
          { id := newId "req"
            model := model
            system := intake.system
            messages := intake.messages
            tools := tools.filterMap Sum.getLeft?
            serverTools := tools.filterMap Sum.getRight?
            stream := ((body.get "stream").bind Json.asBool).getD false
            maxOutputTokens := (body.getU64 "max_tokens").filter fun n => n < 2 ^ 32
            temperature := ((body.get "temperature").bind Json.asF64).map Fp.convert
            protocolPassthrough := anthropicPassthrough body
            systemCacheHint := (systemField (body.get "system")).2
            toolsCacheHint := ((body.getArray "tools").getD []).foldl noteHint none } := by
  unfold requestFromAnthropic
  cases hmodel : body.getStr "model" with
  | none => simp
  | some model =>
    cases hmessages : body.getArray "messages" with
    | none => simp
    | some messages =>
      dsimp only
      simp only [bind_eq_ok_iff, Option.some.injEq]
      constructor
      · rintro ⟨intake, hintake, tools, htools, hreq⟩
        exact ⟨model, messages, intake, tools, rfl, rfl, hintake, htools, (Except.ok.inj hreq).symm⟩
      · rintro ⟨_, _, intake, tools, rfl, rfl, hintake, htools, rfl⟩
        exact ⟨intake, hintake, tools, htools, rfl⟩

/-- The body with the turn is accepted, and the turn is parsed into `parts`. -/
def TurnParsed (newId : String → String) (body : Json) (req : AiRequest) (content : List Json)
    (parts : List ContentPart) : Prop :=
  ∃ req', requestFromAnthropic newId (appendTurn (assistantMessage content) body) = .ok req' ∧
    ∃ turn, req'.messages = req.messages ++ [turn] ∧ turn.role = .assistant ∧
      turn.content = parts

theorem intakeMessage_assistantMessage (st : Intake) (content : List Json) :
    intakeMessage st (assistantMessage content) = (do
      let parts ← content.mapM assistantBlock
      return { st with
        messages := st.messages ++
          [{ role := .assistant, content := parts.filterMap fun part => part,
             cacheHint := content.foldl noteHint none }] }) := by
  have hrole : (assistantMessage content).getStr "role" = some "assistant" := by
    unfold Json.getStr assistantMessage
    rw [Json.get_mkObj (by simp)]
    rfl
  have hcontent : (assistantMessage content).get "content" = some (.arr content) := by
    unfold assistantMessage
    rw [Json.get_mkObj (by simp)]
    rfl
  unfold intakeMessage
  rw [hrole, hcontent]
  show (assistantTurn (some (.arr content)) >>= _) = _
  rw [assistantTurn, bind_assoc]
  rfl

theorem turnParsed_iff (h : requestFromAnthropic newId body = .ok req) {content : List Json} :
    TurnParsed newId body req content parts ↔
      ∃ blocks, content.mapM assistantBlock = .ok blocks ∧
        (blocks.filterMap fun part => part) = parts := by
  obtain ⟨model, messages, intake, tools, hmodel, hmessages, hintake, htools, rfl⟩ :=
    requestFromAnthropic_eq_ok_iff.mp h
  have hget : ∀ {key}, key ≠ "messages" →
      (appendTurn (assistantMessage content) body).get key = body.get key := by
    intro key hkey
    rw [get_appendTurn, if_neg hkey]
  have harray : (appendTurn (assistantMessage content) body).getArray "tools" =
      body.getArray "tools" := by
    unfold Json.getArray
    rw [hget (by decide)]
  have hfold : (messages ++ [assistantMessage content]).foldlM intakeMessage
      { system := (systemField (body.get "system")).1 } =
        intakeMessage intake (assistantMessage content) := by
    rw [List.foldlM_append, hintake]
    show ([assistantMessage content].foldlM intakeMessage intake) = _
    rw [List.foldlM_cons]
    cases intakeMessage intake (assistantMessage content) <;> rfl
  unfold TurnParsed
  simp only [requestFromAnthropic_eq_ok_iff, getArray_appendTurn hmessages,
    getStr_appendTurn (show "model" ≠ "messages" by decide), hmodel,
    hget (show "system" ≠ "messages" by decide), harray, Option.some.injEq]
  constructor
  · rintro ⟨req', ⟨_, _, intake', tools', rfl, rfl, hintake', -, rfl⟩, turn, hturn, -, rfl⟩
    rw [hfold, intakeMessage_assistantMessage] at hintake'
    obtain ⟨blocks, hblocks, heq⟩ := bind_eq_ok_iff.mp hintake'
    cases heq
    obtain rfl := List.singleton_injective (List.append_cancel_left hturn)
    exact ⟨blocks, hblocks, rfl⟩
  · rintro ⟨blocks, hblocks, rfl⟩
    have hnew := hfold.trans (intakeMessage_assistantMessage intake content)
    rw [hblocks] at hnew
    exact ⟨_, ⟨model, _, _, tools, rfl, rfl, hnew, htools, rfl⟩, _, rfl, rfl, rfl⟩

/-! ### The blocks of a whole response -/

namespace ContentPart

/-- The parts that an assistant turn is made of. -/
def isTurnPart : ContentPart → Bool
  | text _ | toolUse .. | reasoning .. => true
  | _ => false

end ContentPart

/-- Text, tool uses and reasoning of a response, in order. -/
def AiResponse.turnParts (r : AiResponse) : List ContentPart :=
  r.message.content.filter ContentPart.isTurnPart

theorem assistantBlock_text (text : String) :
    assistantBlock (Json.mkObj [("type", .str "text"), ("text", .str text)]) =
      .ok (some (.text text)) := by
  have h (k v : String) (hk : OrdMap.getList k [("type", Json.str "text"), ("text", .str text)] =
      some (.str v)) : (Json.mkObj [("type", .str "text"), ("text", .str text)]).getStr k =
        some v := by
    unfold Json.getStr
    rw [Json.get_mkObj (by simp), hk]
    rfl
  unfold assistantBlock
  rw [h "type" "text" rfl, h "text" text rfl]
  rfl

theorem assistantBlock_toolUse (id name : String) (args : Json) :
    assistantBlock (Json.mkObj [("type", .str "tool_use"), ("id", .str id), ("name", .str name),
      ("input", args)]) = .ok (some (.toolUse id name args)) := by
  have hget : ∀ key, (Json.mkObj [("type", .str "tool_use"), ("id", .str id), ("name", .str name),
      ("input", args)]).get key = OrdMap.getList key [("type", .str "tool_use"), ("id", .str id),
        ("name", .str name), ("input", args)] := fun key => Json.get_mkObj (by simp) key
  unfold assistantBlock Json.getStr
  simp only [hget]
  rfl

theorem assistantBlock_thinking (fields : List (String × Json))
    (h : (("type", Json.str "thinking") :: fields |>.map Prod.fst).Nodup) :
    assistantBlock (Json.mkObj (("type", .str "thinking") :: fields)) =
      .error "unsupported Anthropic assistant content block `thinking`" := by
  have htype : (Json.mkObj (("type", .str "thinking") :: fields)).getStr "type" =
      some "thinking" := by
    unfold Json.getStr
    rw [Json.get_mkObj h]
    rfl
  unfold assistantBlock
  rw [htype]
  rfl

theorem assistantBlock_of_anthropicBlock {part : ContentPart} {block : Json}
    (h : anthropicBlock part = some block) :
    (part.isReasoning = false → assistantBlock block = .ok (some part)) ∧
      (part.isReasoning = true → ∀ parsed, assistantBlock block ≠ .ok parsed) := by
  cases part with
  | text text =>
    cases h
    exact ⟨fun _ => assistantBlock_text text, nofun⟩
  | toolUse id name args =>
    cases h
    exact ⟨fun _ => assistantBlock_toolUse id name args, nofun⟩
  | reasoning text signature =>
    cases h
    refine ⟨nofun, fun _ parsed => ?_⟩
    rw [List.cons_append, assistantBlock_thinking _ (by cases signature <;> simp)]
    exact nofun
  | _ => cases h

theorem mapM_anthropicBlock (h : ∀ part ∈ parts, part.isReasoning = false) :
    (parts.filterMap anthropicBlock).mapM assistantBlock =
      .ok ((parts.filter ContentPart.isTurnPart).map some) := by
  rw [mapM_eq_ok_iff]
  induction parts with
  | nil => exact .nil
  | cons part parts ih =>
    obtain ⟨hpart, hparts⟩ := List.forall_mem_cons.mp h
    have hkept : (anthropicBlock part).isSome = part.isTurnPart := by cases part <;> rfl
    cases hblock : anthropicBlock part with
    | none =>
      rw [hblock] at hkept
      rw [List.filterMap_cons_none hblock, List.filter_cons_of_neg (by simp [← hkept])]
      exact ih hparts
    | some block =>
      rw [hblock] at hkept
      rw [List.filterMap_cons_some hblock, List.filter_cons_of_pos hkept.symm, List.map_cons]
      exact .cons ((assistantBlock_of_anthropicBlock hblock).1 hpart) (ih hparts)

theorem filterMap_map_some (parts : List ContentPart) :
    ((parts.map some).filterMap fun part => part) = parts := by
  rw [List.filterMap_map]
  exact List.filterMap_some

theorem turnParsed_anthropicBlock_iff
    (h : requestFromAnthropic newId body = .ok req) (sent parts : List ContentPart) :
    TurnParsed newId body req (sent.filterMap anthropicBlock) parts ↔
      (∀ part ∈ sent, part.isReasoning = false) ∧
        sent.filter ContentPart.isTurnPart = parts := by
  rw [turnParsed_iff h]
  constructor
  · rintro ⟨blocks, hblocks, rfl⟩
    have hno : ∀ part ∈ sent, part.isReasoning = false := by
      intro part hpart
      by_contra hreasoning
      have htrue : part.isReasoning = true := Bool.eq_true_of_not_eq_false hreasoning
      obtain ⟨block, hblock⟩ : ∃ block, anthropicBlock part = some block := by
        cases part <;> simp [ContentPart.isReasoning, anthropicBlock] at htrue ⊢
      obtain ⟨parsed, hparsed⟩ := exists_mapM_eq_ok_iff.mp ⟨blocks, hblocks⟩ block
        (List.mem_filterMap.mpr ⟨part, hpart, hblock⟩)
      exact (assistantBlock_of_anthropicBlock hblock).2 htrue parsed hparsed
    rw [mapM_anthropicBlock hno] at hblocks
    cases hblocks
    exact ⟨hno, (filterMap_map_some _).symm⟩
  · rintro ⟨hno, rfl⟩
    exact ⟨_, mapM_anthropicBlock hno, filterMap_map_some _⟩

theorem content_responseToAnthropic (r : AiResponse) :
    (responseToAnthropic r).getArray "content" =
      some (r.message.content.filterMap anthropicBlock) := by
  unfold Json.getArray responseToAnthropic
  rw [Json.get_mkObj (by simp)]
  rfl

/-! ### The blocks of a stream -/

/-- A block as the client collects it; the arguments of a tool use stay text until the end. -/
inductive ReadBlock where
  | text (text : String)
  | thinking (thinking : String)
  | toolUse (id name json : String)

namespace ReadBlock

def start (block : Json) : Option ReadBlock :=
  match block.getStr "type" with
  | some "text" => some (.text ((block.getStr "text").getD ""))
  | some "thinking" => some (.thinking ((block.getStr "thinking").getD ""))
  | some "tool_use" =>
      some (.toolUse ((block.getStr "id").getD "") ((block.getStr "name").getD "") "")
  | _ => none

def extend (delta : Json) (block : ReadBlock) : ReadBlock :=
  match block, delta.getStr "type" with
  | .text t, some "text_delta" => .text (t ++ (delta.getStr "text").getD "")
  | .thinking t, some "thinking_delta" => .thinking (t ++ (delta.getStr "thinking").getD "")
  | .toolUse id name json, some "input_json_delta" =>
      .toolUse id name (json ++ (delta.getStr "partial_json").getD "")
  | block, _ => block

def isText : ReadBlock → Bool
  | text _ => true
  | _ => false

/-- The part a block stands for, with the client's reading of the arguments. -/
def part (parse : String → Json) : ReadBlock → ContentPart
  | text t => .text t
  | thinking t => .reasoning t none
  | toolUse id name json => .toolUse id name (parse json)

end ReadBlock

/-- A block is put at the end when it starts, and a delta extends the block at its index. -/
def readBlock (blocks : List ReadBlock) (frame : SseFrame) : List ReadBlock :=
  match frame.event with
  | "content_block_start" =>
      blocks ++ ((frame.data.get "content_block").bind ReadBlock.start).toList
  | "content_block_delta" =>
      match frame.data.getU64 "index", frame.data.get "delta" with
      | some index, some delta => blocks.modify index (ReadBlock.extend delta)
      | _, _ => blocks
  | _ => blocks

def readBlocks (frames : List SseFrame) : List ReadBlock := frames.foldl readBlock []

/-- The content a client sends back for a stream. -/
def reassembled (parse : String → Json) (frames : List SseFrame) : List Json :=
  ((readBlocks frames).map (ReadBlock.part parse)).filterMap anthropicBlock

section Frames

open AnthropicStreamEncoder

variable (blocks : List ReadBlock) (index : ℕ)

theorem readBlock_contentBlockStart (block : Json) :
    readBlock blocks (contentBlockStart index block) =
      blocks ++ (ReadBlock.start block).toList := by
  have hblock : (contentBlockStart index block).data.get "content_block" = some block := by
    unfold contentBlockStart
    rw [Json.get_mkObj (by simp)]
    rfl
  show blocks ++ (((contentBlockStart index block).data.get "content_block").bind
    ReadBlock.start).toList = _
  rw [hblock, Option.bind_some]

theorem readBlock_contentBlockDelta (delta : Json) :
    readBlock blocks (contentBlockDelta index delta) =
      blocks.modify index (ReadBlock.extend delta) := by
  have hindex : (contentBlockDelta index delta).data.getU64 "index" = some index :=
    MessagesReader.getU64_ofNat index (by simp) rfl
  have hdelta : (contentBlockDelta index delta).data.get "delta" = some delta := by
    unfold contentBlockDelta
    rw [Json.get_mkObj (by simp)]
    rfl
  unfold readBlock
  rw [hindex, hdelta]
  rfl

theorem start_textBlock : ReadBlock.start textBlock = some (.text "") := by
  have h : textBlock.getStr "type" = some "text" ∧ textBlock.getStr "text" = some "" := by
    unfold Json.getStr textBlock
    rw [Json.get_mkObj (by simp), Json.get_mkObj (by simp)]
    exact ⟨rfl, rfl⟩
  unfold ReadBlock.start
  rw [h.1, h.2]
  rfl

theorem start_toolUseBlock (id name : String) :
    ReadBlock.start (toolUseBlock id name) = some (.toolUse id name "") := by
  have h (k v : String) (hk : OrdMap.getList k [("type", Json.str "tool_use"), ("id", .str id),
      ("name", .str name), ("input", Json.mkObj [])] = some (.str v)) :
      (toolUseBlock id name).getStr k = some v := by
    unfold Json.getStr toolUseBlock
    rw [Json.get_mkObj (by simp), hk]
    rfl
  unfold ReadBlock.start
  rw [h "type" "tool_use" rfl, h "id" id rfl, h "name" name rfl]
  rfl

theorem extend_textDelta (t text : String) :
    ReadBlock.extend (textDelta text) (.text t) = .text (t ++ text) := by
  have h : (textDelta text).getStr "type" = some "text_delta" ∧
      (textDelta text).getStr "text" = some text := by
    unfold Json.getStr textDelta
    rw [Json.get_mkObj (by simp), Json.get_mkObj (by simp)]
    exact ⟨rfl, rfl⟩
  unfold ReadBlock.extend
  rw [h.1, h.2]
  rfl

theorem extend_inputJsonDelta (id name json fragment : String) :
    ReadBlock.extend (inputJsonDelta fragment) (.toolUse id name json) =
      .toolUse id name (json ++ fragment) := by
  obtain ⟨htype, hjson⟩ := MessagesReader.getStr_inputJsonDelta fragment
  unfold ReadBlock.extend
  rw [htype, hjson]
  rfl

theorem modify_append_singleton (block : ReadBlock) (f : ReadBlock → ReadBlock) :
    (blocks ++ [block]).modify blocks.length f = blocks ++ [f block] := by
  induction blocks with
  | nil => rfl
  | cons b blocks ih => rw [List.cons_append, List.length_cons, List.modify_succ_cons, ih]; rfl

end Frames

/-! ### The client beside the encoder -/

/-- Text joins a text block at the end, or starts one. -/
def addText (blocks : List ReadBlock) (t : String) : List ReadBlock :=
  if t = "" then blocks
  else
    match blocks.getLast? with
    | some (.text u) => blocks.dropLast ++ [.text (u ++ t)]
    | _ => blocks ++ [.text t]

theorem addText_of_text (init : List ReadBlock) (u t : String) :
    addText (init ++ [ReadBlock.text u]) t = init ++ [ReadBlock.text (u ++ t)] := by
  by_cases ht : t = ""
  · simp [addText, ht]
  · simp [addText, ht]

theorem addText_of_not_text {blocks : List ReadBlock} (h : ∀ u, blocks.getLast? ≠ some (.text u))
    {t : String} (ht : t ≠ "") : addText blocks t = blocks ++ [ReadBlock.text t] := by
  rw [addText, if_neg ht]
  split
  · rename_i u hu
    exact absurd hu (h u)
  · rfl

theorem text_at_end_or (blocks : List ReadBlock) :
    (∃ init u, blocks = init ++ [ReadBlock.text u]) ∨ ∀ u, blocks.getLast? ≠ some (.text u) := by
  by_cases h : ∃ u, blocks.getLast? = some (.text u)
  · obtain ⟨u, hu⟩ := h
    obtain ⟨init, hinit⟩ := List.getLast?_eq_some_iff.mp hu
    exact .inl ⟨init, u, hinit⟩
  · exact .inr fun u hu => h ⟨u, hu⟩

theorem addText_addText (blocks : List ReadBlock) (t u : String) :
    addText (addText blocks t) u = addText blocks (t ++ u) := by
  by_cases ht : t = ""
  · simp [addText, ht]
  · have htu : t ++ u ≠ "" := by simp [ht]
    rcases text_at_end_or blocks with ⟨init, w, rfl⟩ | hnot
    · rw [addText_of_text, addText_of_text, addText_of_text, String.append_assoc]
    · rw [addText_of_not_text hnot ht, addText_of_text, addText_of_not_text hnot htu]

/-- The encoder is within the message, and the block at the end is its open text block, if it has
one. -/
structure Within (e : AnthropicStreamEncoder) (blocks : List ReadBlock) : Prop where
  started : e.messageStarted = true
  live : e.ended = false
  next : e.nextIndex = blocks.length
  openText : ∀ i, e.openBlock = some (.text i) ↔
    ∃ init t, blocks = init ++ [.text t] ∧ i = init.length

/-- The encoder and the client that reads its frames. -/
def playing (p : AnthropicStreamEncoder × List ReadBlock) (event : AiStreamEvent) :
    AnthropicStreamEncoder × List ReadBlock :=
  ((p.1.encode event).2, (p.1.encode event).1.foldl readBlock p.2)

theorem foldl_playing (p : AnthropicStreamEncoder × List ReadBlock)
    (events : List AiStreamEvent) :
    (events.foldl playing p).2 = (p.1.encodeStream events).foldl readBlock p.2 := by
  induction events generalizing p with
  | nil => rfl
  | cons event events ih =>
    rw [List.foldl_cons, ih, AnthropicStreamEncoder.encodeStream, List.foldl_append]
    rfl

namespace Within

open AnthropicStreamEncoder

variable {e : AnthropicStreamEncoder} {blocks : List ReadBlock}

theorem encode_eq (h : Within e blocks) {event : AiStreamEvent}
    {f : AnthropicStreamEncoder → List SseFrame × AnthropicStreamEncoder}
    (hf : e.encode event = if e.ended then ([], e) else e.started f) : e.encode event = f e := by
  rw [hf, if_neg (by simp [h.live]), AnthropicStreamEncoder.started, ensureStarted,
    if_pos h.started]
  rfl

theorem foldl_closeBlock_readBlock (e : AnthropicStreamEncoder) (blocks : List ReadBlock) :
    e.closeBlock.1.foldl readBlock blocks = blocks := by
  unfold closeBlock
  split <;> rfl

theorem foldl_startBlock_readBlock (kind : ℕ → OpenBlock) (block : Json) :
    (e.startBlock kind block).1.foldl readBlock blocks =
      blocks ++ (ReadBlock.start block).toList := by
  unfold startBlock
  dsimp only
  rw [List.foldl_append, foldl_closeBlock_readBlock, List.foldl_cons, List.foldl_nil,
    readBlock_contentBlockStart]

/-- A text delta extends the open text block or opens one. -/
theorem text (h : Within e blocks) (t : String) :
    ∃ e', playing (e, blocks) (.textDelta t) = (e', addText blocks t) ∧
      Within e' (addText blocks t) := by
  by_cases ht : t = ""
  · refine ⟨e, ?_, ?_⟩
    · unfold playing encode
      simp [ht, h.live, addText]
    · rw [addText, if_pos ht]
      exact h
  · have hencode : e.encode (.textDelta t) = e.encodeText t :=
      h.encode_eq (f := fun e => e.encodeText t) (by simp [encode, ht])
    unfold playing
    dsimp only
    rw [hencode]
    by_cases hopen : ∃ i, e.openBlock = some (.text i)
    · -- the open block is the last one
      obtain ⟨i, hi⟩ := hopen
      obtain ⟨init, u, rfl, rfl⟩ := (h.openText i).mp hi
      rw [e.encodeText_of_text hi, addText_of_text]
      refine ⟨e, ?_, h.started, h.live, by simp [h.next], fun i => ?_⟩
      · rw [List.foldl_cons, List.foldl_nil, readBlock_contentBlockDelta, modify_append_singleton,
          extend_textDelta]
      · rw [h.openText i]
        constructor
        · rintro ⟨init', u', heq, rfl⟩
          exact ⟨init, u ++ t, rfl, by simpa using congrArg List.length heq.symm⟩
        · rintro ⟨init', u', heq, rfl⟩
          exact ⟨init, u, rfl, by simpa using congrArg List.length heq.symm⟩
    · have hlast : ∀ u, blocks.getLast? ≠ some (.text u) := by
        intro u hu
        obtain ⟨init, rfl⟩ := List.getLast?_eq_some_iff.mp hu
        exact hopen ⟨init.length, (h.openText _).mpr ⟨init, u, rfl, rfl⟩⟩
      rw [e.encodeText_of_not_text hopen, addText_of_not_text hlast ht]
      refine ⟨(e.startBlock .text textBlock).2, ?_, ?_⟩
      · rw [List.foldl_append, foldl_startBlock_readBlock, start_textBlock, List.foldl_cons,
          List.foldl_nil, readBlock_contentBlockDelta, h.next, Option.toList_some,
          modify_append_singleton, extend_textDelta, String.empty_append]
      · rw [startBlock_snd]
        refine ⟨h.started, h.live, by simp [h.next], fun i => ?_⟩
        simp only [h.next, Option.some.injEq, OpenBlock.text.injEq]
        constructor
        · rintro rfl
          exact ⟨blocks, t, rfl, rfl⟩
        · rintro ⟨init, u, heq, rfl⟩
          simpa using congrArg List.length heq

theorem toolStart (h : Within e blocks) (index : ℕ) (id name : String) :
    ∃ e', playing (e, blocks) (.toolCallStart { index := index, id := id, name := name }) =
        (e', blocks ++ [ReadBlock.toolUse id name ""]) ∧
      Within e' (blocks ++ [ReadBlock.toolUse id name ""]) ∧
      e'.toolIndexMap.get index = some blocks.length := by
  have hencode : e.encode (.toolCallStart { index := index, id := id, name := name }) =
      ((e.startBlock .tool (toolUseBlock id name)).1,
        { (e.startBlock .tool (toolUseBlock id name)).2 with
          toolIndexMap := (e.startBlock .tool (toolUseBlock id name)).2.toolIndexMap.insert index
            e.nextIndex }) := by
    simp [encode, h.live, AnthropicStreamEncoder.started, ensureStarted, h.started]
  refine ⟨{ e with
    openBlock := some (.tool blocks.length)
    nextIndex := blocks.length + 1
    toolIndexMap := e.toolIndexMap.insert index blocks.length }, ?_, ?_, by simp⟩
  · unfold playing
    dsimp only
    rw [hencode, foldl_startBlock_readBlock, start_toolUseBlock, startBlock_snd, h.next]
    rfl
  · refine ⟨h.started, h.live, by simp, fun i => ⟨(fun hopen => by cases hopen), ?_⟩⟩
    rintro ⟨init, t, heq, -⟩
    have hlast := congrArg List.getLast? heq
    simp at hlast

/-- A fragment extends the block of the call. -/
theorem toolArgs {index : ℕ} {id name json : String}
    (h : Within e (blocks ++ [ReadBlock.toolUse id name json]))
    (hindex : e.toolIndexMap.get index = some blocks.length) (fragment : String) :
    playing (e, blocks ++ [ReadBlock.toolUse id name json]) (.toolCallArgsDelta index fragment) =
        (e, blocks ++ [ReadBlock.toolUse id name (json ++ fragment)]) ∧
      Within e (blocks ++ [ReadBlock.toolUse id name (json ++ fragment)]) := by
  have hencode : e.encode (.toolCallArgsDelta index fragment) =
      ([contentBlockDelta blocks.length (inputJsonDelta fragment)], e) := by
    simp [encode, h.live, AnthropicStreamEncoder.started, ensureStarted, h.started, hindex]
  have hno {json : String} {i : ℕ} : ¬ ∃ init t,
      blocks ++ [ReadBlock.toolUse id name json] = init ++ [.text t] ∧ i = init.length := by
    rintro ⟨init, t, heq, -⟩
    have hlast := congrArg List.getLast? heq
    simp at hlast
  constructor
  · unfold playing
    dsimp only
    rw [hencode, List.foldl_cons, List.foldl_nil, readBlock_contentBlockDelta,
      modify_append_singleton, extend_inputJsonDelta]
  · exact ⟨h.started, h.live, by simp [h.next], fun i =>
      ⟨fun hopen => absurd ((h.openText i).mp hopen) hno, fun hlast => absurd hlast hno⟩⟩

/-- Usage, images, citations, server tools and the ends of calls leave the blocks as they are. -/
def aside : AiStreamEvent → Bool
  | .usageDelta _ | .outputImage .. | .citation .. | .serverToolCall .. | .toolCallEnd _ => true
  | _ => false

theorem playing_aside (h : Within e blocks) {event : AiStreamEvent} (haside : aside event = true) :
    ∃ e', playing (e, blocks) event = (e', blocks) ∧ Within e' blocks ∧
      e'.toolIndexMap = e.toolIndexMap := by
  cases event with
  | usageDelta usage =>
    refine ⟨{ e with usage := usage }, ?_, ⟨h.started, h.live, h.next, h.openText⟩, rfl⟩
    simp [playing, encode, h.live]
  | outputImage mediaType data => exact ⟨e, by simp [playing, encode, h.live], h, rfl⟩
  | citation url title => exact ⟨e, by simp [playing, encode, h.live], h, rfl⟩
  | serverToolCall id name status => exact ⟨e, by simp [playing, encode, h.live], h, rfl⟩
  | toolCallEnd index =>
    have hkeeps (hno : ∀ i, e.openBlock ≠ some (.tool i)) :
        playing (e, blocks) (.toolCallEnd index) = (e, blocks) := by
      cases hopen : e.openBlock with
      | none => simp [playing, encode, h.live, hopen]
      | some block =>
        cases block with
        | tool i => exact absurd hopen (hno i)
        | _ => simp [playing, encode, h.live, hopen]
    by_cases hcall : ∃ i, e.openBlock = some (.tool i)
    · obtain ⟨openIndex, hopen⟩ := hcall
      by_cases hmine : (e.toolIndexMap.get index).getD openIndex = openIndex
      · -- the open block is a call, and the client reads nothing from its stop
        have hencode : e.encode (.toolCallEnd index) = e.closeBlock := by
          simp [encode, h.live, hopen, hmine]
        refine ⟨e.closeBlock.2, ?_, ?_, ?_⟩
        · rw [playing, hencode, foldl_closeBlock_readBlock]
        · rw [closeBlock_snd]
          refine ⟨h.started, h.live, h.next, fun i => ⟨fun hnone => ?_, fun hlast => ?_⟩⟩
          · cases hnone
          · rw [← h.openText i, hopen] at hlast
            cases hlast
        · rw [closeBlock_snd]
      · exact ⟨e, by simp [playing, encode, h.live, hopen, hmine], h, rfl⟩
    · exact ⟨e, hkeeps (not_exists.1 hcall), h, rfl⟩
  | _ => simp [aside] at haside

theorem playing_messageEnd (h : Within e blocks) (finish : FinishReason) :
    (playing (e, blocks) (.messageEnd finish)).2 = blocks := by
  have hencode : (e.encode (.messageEnd finish)).1 =
      e.closeBlock.1 ++ [messageDelta finish e.closeBlock.2.usage, messageStop] := by
    simp [encode, h.live, AnthropicStreamEncoder.started, ensureStarted, h.started]
  unfold playing
  dsimp only
  rw [hencode, List.foldl_append, foldl_closeBlock_readBlock]
  rfl

end Within

theorem within_start (id model id' model' : String) :
    ∃ e', playing ({ id := id, model := model }, []) (.messageStart id' model') = (e', []) ∧
      Within e' [] := by
  refine ⟨_, rfl, rfl, rfl, rfl, fun i => ⟨nofun, ?_⟩⟩
  rintro ⟨init, t, heq, -⟩
  simp at heq

/-! ### Events that carry a list of parts -/

/-- Where the events stand: between parts, or within a call with some of its arguments to come. -/
inductive Place where
  | between
  | call (index : ℕ) (rest : String)

/-- The events carry the parts in order, text and arguments cut into deltas at will; parts that are
no turn parts are left out, and other events may stand anywhere.  A call need not be ended, and its
end may come late. -/
inductive Plays (toJsonString : Json → String) :
    Place → List ContentPart → List AiStreamEvent → Prop
  | nil : Plays toJsonString .between [] []
  | text {parts events} (t : String) {rest : String}
      (h : Plays toJsonString .between (.text rest :: parts) events) :
      Plays toJsonString .between (.text (t ++ rest) :: parts) (.textDelta t :: events)
  | textDone {parts events} (h : Plays toJsonString .between parts events) :
      Plays toJsonString .between (.text "" :: parts) events
  | reasoning {parts events} (t : String) {rest : String} {signature : Option String}
      (h : Plays toJsonString .between (.reasoning rest signature :: parts) events) :
      Plays toJsonString .between (.reasoning (t ++ rest) signature :: parts)
        (.reasoningDelta t :: events)
  | reasoningDone {parts events} {signature : Option String}
      (h : Plays toJsonString .between parts events) :
      Plays toJsonString .between (.reasoning "" signature :: parts) events
  | toolUse {parts events} (index : ℕ) (id name : String) (args : Json)
      (h : Plays toJsonString (.call index (toJsonString args)) parts events) :
      Plays toJsonString .between (.toolUse id name args :: parts)
        (.toolCallStart { index := index, id := id, name := name } :: events)
  | toolArgs {index parts events} (fragment : String) {rest : String}
      (h : Plays toJsonString (.call index rest) parts events) :
      Plays toJsonString (.call index (fragment ++ rest)) parts
        (.toolCallArgsDelta index fragment :: events)
  | toolDone {index parts events} (h : Plays toJsonString .between parts events) :
      Plays toJsonString (.call index "") parts events
  | skip {parts events} {part : ContentPart} (hpart : part.isTurnPart = false)
      (h : Plays toJsonString .between parts events) :
      Plays toJsonString .between (part :: parts) events
  | aside {place parts events} {event : AiStreamEvent} (hevent : Within.aside event = true)
      (h : Plays toJsonString place parts events) : Plays toJsonString place parts (event :: events)

/-- The events are a message that carries the response. -/
def PlaysResponse (toJsonString : Json → String) (r : AiResponse) (events : List AiStreamEvent) :
    Prop :=
  ∃ id model inner, Plays toJsonString .between r.message.content inner ∧
    events = .messageStart id model :: (inner ++ [.messageEnd r.finishReason])

/-- The blocks after one more part. -/
def addPart (toJsonString : Json → String) (blocks : List ReadBlock) :
    ContentPart → List ReadBlock
  | .text t => addText blocks t
  | .toolUse id name args => blocks ++ [.toolUse id name (toJsonString args)]
  | _ => blocks

section

variable {toJsonString : Json → String}

variable {parts : List ContentPart}

/-- The encoder and the client stand at the place: `next` is what the client has when the part that
is under way is over. -/
def Place.Holds (e : AnthropicStreamEncoder) (blocks next : List ReadBlock) : Place → Prop
  | .between => next = blocks
  | .call index rest => ∃ init id name json, blocks = init ++ [.toolUse id name json] ∧
      e.toolIndexMap.get index = some init.length ∧ next = init ++ [.toolUse id name (json ++ rest)]

theorem Place.Holds.of_map {e e' : AnthropicStreamEncoder} {blocks next : List ReadBlock}
    {place : Place} (h : place.Holds e blocks next) (hmap : e'.toolIndexMap = e.toolIndexMap) :
    place.Holds e' blocks next := by
  cases place with
  | between => exact h
  | call index rest =>
    obtain ⟨init, id, name, json, hblocks, hindex, hnext⟩ := h
    exact ⟨init, id, name, json, hblocks, by rw [hmap, hindex], hnext⟩

/-- What the client has after the parts, when none of them is reasoning. -/
theorem Plays.foldl_playing {place : Place} {events : List AiStreamEvent}
    (hplays : Plays toJsonString place parts events)
    (hno : ∀ part ∈ parts, part.isReasoning = false) {e : AnthropicStreamEncoder}
    {blocks next : List ReadBlock} (h : Within e blocks) (hplace : place.Holds e blocks next) :
    ∃ e', events.foldl playing (e, blocks) =
        (e', parts.foldl (addPart toJsonString) next) ∧
      Within e' (parts.foldl (addPart toJsonString) next) := by
  induction hplays generalizing e blocks next with
  | nil =>
    obtain rfl : next = blocks := hplace
    exact ⟨e, rfl, h⟩
  | text t _ ih =>
    obtain rfl : next = blocks := hplace
    obtain ⟨e', hplay, hwithin⟩ := h.text t
    have hrest := ih (List.forall_mem_cons.mpr ⟨rfl, (List.forall_mem_cons.mp hno).2⟩) hwithin
      (show addText next t = addText next t from rfl)
    rw [List.foldl_cons, hplay]
    simpa only [List.foldl_cons, addPart, addText_addText] using hrest
  | textDone _ ih => exact ih (List.forall_mem_cons.mp hno).2 h hplace
  | reasoning | reasoningDone =>
    exact absurd (List.forall_mem_cons.mp hno).1 (by simp [ContentPart.isReasoning])
  | toolUse index id name args _ ih =>
    obtain rfl : next = blocks := hplace
    obtain ⟨e', hplay, hwithin, hindex⟩ := h.toolStart index id name
    rw [List.foldl_cons, hplay]
    refine ih (List.forall_mem_cons.mp hno).2 hwithin ⟨_, id, name, "", rfl, hindex, ?_⟩
    rw [String.empty_append]
    rfl
  | toolArgs fragment _ ih =>
    obtain ⟨init, id, name, json, rfl, hindex, rfl⟩ := hplace
    obtain ⟨hplay, hwithin⟩ := h.toolArgs hindex fragment
    rw [List.foldl_cons, hplay]
    exact ih hno hwithin ⟨init, id, name, _, rfl, hindex, by rw [String.append_assoc]⟩
  | toolDone _ ih =>
    obtain ⟨init, id, name, json, rfl, -, rfl⟩ := hplace
    rw [String.append_empty]
    exact ih hno h rfl
  | @skip parts events part hpart _ ih =>
    have hsame : addPart toJsonString next part = next := by
      cases part <;> simp [ContentPart.isTurnPart, addPart] at hpart ⊢
    rw [List.foldl_cons, hsame]
    exact ih (List.forall_mem_cons.mp hno).2 h hplace
  | aside hevent _ ih =>
    obtain ⟨e', hplay, hwithin, hmap⟩ := h.playing_aside hevent
    rw [List.foldl_cons, hplay]
    exact ih hno hwithin (hplace.of_map hmap)

theorem exists_plays (parts : List ContentPart) :
    ∃ events, Plays toJsonString .between parts events := by
  induction parts with
  | nil => exact ⟨[], .nil⟩
  | cons part parts ih =>
    obtain ⟨events, h⟩ := ih
    cases part with
    | text t => exact ⟨.textDelta t :: events, by simpa using Plays.text t (.textDone h)⟩
    | reasoning t signature =>
      exact ⟨.reasoningDelta t :: events, by simpa using Plays.reasoning t (.reasoningDone h)⟩
    | toolUse id name args =>
      have hargs : Plays toJsonString (.call 0 (toJsonString args)) parts
          (.toolCallArgsDelta 0 (toJsonString args) :: events) := by
        simpa using Plays.toolArgs (toJsonString args) (.toolDone h)
      exact ⟨_, .toolUse 0 id name args hargs⟩
    | _ => exact ⟨events, .skip rfl h⟩

theorem PlaysResponse.readBlocks_eq {r : AiResponse} {events : List AiStreamEvent}
    (h : PlaysResponse toJsonString r events)
    (hno : ∀ part ∈ r.message.content, part.isReasoning = false) (id model : String) :
    readBlocks (({ id := id, model := model } : AnthropicStreamEncoder).encodeStream events) =
      r.message.content.foldl (addPart toJsonString) [] := by
  obtain ⟨id', model', inner, hinner, rfl⟩ := h
  obtain ⟨e, hstart, hwithin⟩ := within_start id model id' model'
  obtain ⟨e', hplay, hwithin'⟩ := hinner.foldl_playing hno hwithin rfl
  unfold readBlocks
  rw [← foldl_playing ({ id := id, model := model }, []), List.foldl_cons, hstart,
    List.foldl_append, hplay, List.foldl_cons, List.foldl_nil]
  exact hwithin'.playing_messageEnd _

/-! ### Texts that stay apart -/

/-- No text is empty, and a tool use stands between two texts; `afterText` tells whether a text
came last. -/
def TextsApart (afterText : Bool) : List ContentPart → Prop
  | [] => True
  | .text t :: parts => t ≠ "" ∧ afterText = false ∧ TextsApart true parts
  | .toolUse .. :: parts => TextsApart false parts
  | _ :: parts => TextsApart afterText parts

/-- The last block is a text. -/
def endsInText (blocks : List ReadBlock) : Bool := (blocks.getLast?.map ReadBlock.isText).getD false

theorem endsInText_text (init : List ReadBlock) (t : String) :
    endsInText (init ++ [ReadBlock.text t]) = true := by simp [endsInText, ReadBlock.isText]

theorem endsInText_toolUse (init : List ReadBlock) (id name json : String) :
    endsInText (init ++ [ReadBlock.toolUse id name json]) = false := by
  simp [endsInText, ReadBlock.isText]

theorem endsInText_eq_false_iff {blocks : List ReadBlock} :
    endsInText blocks = false ↔ ∀ u, blocks.getLast? ≠ some (.text u) := by
  unfold endsInText
  cases blocks.getLast? with
  | none => simp
  | some block => cases block <;> simp [ReadBlock.isText]

theorem length_addText (blocks : List ReadBlock) (t : String) :
    (addText blocks t).length =
      blocks.length + if t ≠ "" ∧ endsInText blocks = false then 1 else 0 := by
  by_cases ht : t = ""
  · simp [addText, ht]
  · rcases text_at_end_or blocks with ⟨init, u, rfl⟩ | hnot
    · rw [addText_of_text, endsInText_text]
      simp
    · rw [addText_of_not_text hnot ht, endsInText_eq_false_iff.mpr hnot]
      simp [ht]

theorem length_foldl_addPart
    (hno : ∀ part ∈ parts, part.isReasoning = false) (blocks : List ReadBlock) :
    (parts.foldl (addPart toJsonString) blocks).length ≤
        blocks.length + (parts.filter ContentPart.isTurnPart).length ∧
      ((parts.foldl (addPart toJsonString) blocks).length =
          blocks.length + (parts.filter ContentPart.isTurnPart).length →
        TextsApart (endsInText blocks) parts) := by
  induction parts generalizing blocks with
  | nil => exact ⟨Nat.le_refl _, fun _ => trivial⟩
  | cons part parts ih =>
    obtain ⟨hpart, hparts⟩ := List.forall_mem_cons.mp hno
    obtain ⟨hle, heq⟩ := ih hparts (addPart toJsonString blocks part)
    rw [List.foldl_cons]
    cases part with
    | text t =>
      rw [List.filter_cons_of_pos rfl, List.length_cons]
      have hlen := length_addText blocks t
      simp only [addPart] at hle heq ⊢
      split at hlen
      · rename_i hpush
        have hends : endsInText (addText blocks t) = true := by
          rw [addText_of_not_text (endsInText_eq_false_iff.mp hpush.2) hpush.1, endsInText_text]
        rw [hends] at heq
        exact ⟨by omega, fun h => ⟨hpush.1, hpush.2, heq (by omega)⟩⟩
      · exact ⟨by omega, fun h => by omega⟩
    | toolUse id name args =>
      rw [List.filter_cons_of_pos rfl, List.length_cons]
      simp only [addPart, List.length_append, List.length_singleton] at hle heq ⊢
      rw [endsInText_toolUse] at heq
      exact ⟨by omega, fun h => heq (by omega)⟩
    | reasoning text signature => simp [ContentPart.isReasoning] at hpart
    | _ => exact ⟨hle, heq⟩

/-- The block of a part that is no reasoning. -/
def readOf (toJsonString : Json → String) : ContentPart → ReadBlock
  | .toolUse id name args => .toolUse id name (toJsonString args)
  | .text t => .text t
  | _ => .text ""

theorem foldl_addPart_of_textsApart
    (hno : ∀ part ∈ parts, part.isReasoning = false) {blocks : List ReadBlock}
    (h : TextsApart (endsInText blocks) parts) :
    parts.foldl (addPart toJsonString) blocks =
      blocks ++ (parts.filter ContentPart.isTurnPart).map (readOf toJsonString) := by
  induction parts generalizing blocks with
  | nil => simp
  | cons part parts ih =>
    obtain ⟨hpart, hparts⟩ := List.forall_mem_cons.mp hno
    rw [List.foldl_cons]
    cases part with
    | text t =>
      obtain ⟨ht, hends, hrest⟩ := h
      have hadd := addText_of_not_text (endsInText_eq_false_iff.mp hends) ht
      rw [← endsInText_text blocks t] at hrest
      rw [addPart, hadd, ih hparts hrest, List.filter_cons_of_pos rfl, List.map_cons,
        List.append_assoc]
      rfl
    | toolUse id name args =>
      have hrest : TextsApart false parts := h
      rw [← endsInText_toolUse blocks id name (toJsonString args)] at hrest
      rw [addPart, ih hparts hrest, List.filter_cons_of_pos rfl, List.map_cons, List.append_assoc]
      rfl
    | reasoning text signature => simp [ContentPart.isReasoning] at hpart
    | _ => exact ih hparts h

end

/-! ### The turn that comes back -/

theorem assistantBlock_isReasoning {block : Json} {part : ContentPart}
    (h : assistantBlock block = .ok (some part)) : part.isReasoning = false := by
  unfold assistantBlock at h
  split at h
  · cases htext : block.getStr "text" with
    | none => rw [htext] at h; cases h
    | some text => rw [htext] at h; cases h; rfl
  · split at h
    · cases h
    · split at h
      · cases h
      · cases h; rfl
  · cases h

theorem TurnParsed.not_reasoning
    (h : requestFromAnthropic newId body = .ok req) {content : List Json}
    (hparsed : TurnParsed newId body req content parts) :
    ∀ part ∈ parts, part.isReasoning = false := by
  obtain ⟨blocks, hblocks, rfl⟩ := (turnParsed_iff h).mp hparsed
  intro part hpart
  obtain ⟨parsed, hmem, rfl⟩ := List.mem_filterMap.mp hpart
  obtain ⟨block, -, hblock⟩ := exists_of_mem_mapM hblocks hmem
  exact assistantBlock_isReasoning hblock

theorem AiResponse.not_reasoning_iff (r : AiResponse) :
    (∀ part ∈ r.turnParts, part.isReasoning = false) ↔
      ∀ part ∈ r.message.content, part.isReasoning = false := by
  unfold AiResponse.turnParts
  constructor
  · intro h part hpart
    by_contra hreasoning
    have hturn : part.isTurnPart = true := by
      cases part <;> simp [ContentPart.isReasoning, ContentPart.isTurnPart] at hreasoning ⊢
    exact hreasoning (h part (List.mem_filter.mpr ⟨hpart, hturn⟩))
  · intro h part hpart
    exact h part (List.mem_filter.mp hpart).1

/-- The parts that the blocks of a stream stand for, when the client reads back the printed
arguments. -/
theorem map_part_readOf {parse : String → Json} {toJsonString : Json → String}
    (hno : ∀ part ∈ parts, part.isReasoning = false)
    (hturn : ∀ part ∈ parts, part.isTurnPart = true)
    (hparse : ∀ id name args, .toolUse id name args ∈ parts →
      parse (toJsonString args) = args) :
    (parts.map (readOf toJsonString)).map (ReadBlock.part parse) = parts := by
  rw [List.map_map]
  refine (List.map_congr_left fun part hpart => ?_).trans (List.map_id _)
  cases part with
  | text t => rfl
  | toolUse id name args => simp [readOf, ReadBlock.part, hparse id name args hpart]
  | reasoning text signature => exact absurd (hno _ hpart) (by simp [ContentPart.isReasoning])
  | _ => exact absurd (hturn _ hpart) (by simp [ContentPart.isTurnPart])

theorem isTurnPart_part (parse : String → Json) (block : ReadBlock) :
    (block.part parse).isTurnPart = true := by cases block <;> rfl

/-- **A turn that comes back is accepted with the parts of the response** exactly when the response
has no reasoning; put together from a stream, exactly when its texts stay apart as well. -/
theorem returned_turn_iff {newId : String → String} {body : Json} {req : AiRequest}
    (h : requestFromAnthropic newId body = .ok req) (r : AiResponse) :
    (TurnParsed newId body req (((responseToAnthropic r).getArray "content").getD [])
        r.turnParts ↔
      ∀ part ∈ r.message.content, part.isReasoning = false) ∧
    ∀ (parse : String → Json) (toJsonString : Json → String),
      (∀ id name args, .toolUse id name args ∈ r.message.content →
        parse (toJsonString args) = args) →
      ∀ events, PlaysResponse toJsonString r events → ∀ id model,
        (TurnParsed newId body req
            (reassembled parse
              (({ id := id, model := model } : AnthropicStreamEncoder).encodeStream events))
            r.turnParts ↔
          (∀ part ∈ r.message.content, part.isReasoning = false) ∧
            TextsApart false r.message.content) := by
  constructor
  · rw [content_responseToAnthropic, Option.getD_some, turnParsed_anthropicBlock_iff h]
    exact and_iff_left rfl
  · intro parse toJsonString hparse events hplays id model
    have hshown : ∀ hno : ∀ part ∈ r.message.content, part.isReasoning = false,
        TurnParsed newId body req (reassembled parse
            (({ id := id, model := model } : AnthropicStreamEncoder).encodeStream events))
            r.turnParts ↔
          (∀ part ∈ (r.message.content.foldl (addPart toJsonString) []).map
              (ReadBlock.part parse), part.isReasoning = false) ∧
            (r.message.content.foldl (addPart toJsonString) []).map (ReadBlock.part parse) =
              r.turnParts := by
      intro hno
      unfold reassembled
      rw [hplays.readBlocks_eq hno, turnParsed_anthropicBlock_iff h, List.filter_eq_self.mpr]
      intro part hpart
      obtain ⟨block, -, rfl⟩ := List.mem_map.mp hpart
      exact isTurnPart_part parse block
    constructor
    · intro hparsed
      have hno := r.not_reasoning_iff.mp (hparsed.not_reasoning h)
      have hlen := congrArg List.length ((hshown hno).mp hparsed).2
      have hcount : (r.message.content.foldl (addPart toJsonString) []).length =
          ([] : List ReadBlock).length +
            (r.message.content.filter ContentPart.isTurnPart).length := by
        rw [List.length_nil, Nat.zero_add, ← List.length_map (f := ReadBlock.part parse), hlen]
        rfl
      exact ⟨hno, (length_foldl_addPart hno []).2 hcount⟩
    · rintro ⟨hno, hapart⟩
      have hparts : (r.message.content.foldl (addPart toJsonString) []).map
          (ReadBlock.part parse) = r.turnParts := by
        have hfold : r.message.content.foldl (addPart toJsonString) [] = [] ++
            (r.message.content.filter ContentPart.isTurnPart).map (readOf toJsonString) :=
          foldl_addPart_of_textsApart hno hapart
        rw [hfold, List.nil_append]
        refine map_part_readOf (r.not_reasoning_iff.mpr hno)
          (fun part hpart => (List.mem_filter.mp hpart).2) fun id name args hmem => ?_
        exact hparse id name args (List.mem_filter.mp hmem).1
      rw [hshown hno, hparts]
      exact ⟨r.not_reasoning_iff.mpr hno, rfl⟩

/-- A conversation of one user message. -/
def sampleBody : Json :=
  Json.mkObj [("model", .str "claude-x"), ("max_tokens", Json.ofNat 64),
    ("messages", .arr [Json.mkObj [("role", .str "user"), ("content", .str "hi")]])]

/-- The request of the conversation. -/
def sampleRequest : AiRequest where
  id := "req"
  model := "claude-x"
  messages := [{ role := .user, content := [.text "hi"] }]
  maxOutputTokens := some 64

/-- A response with the given parts. -/
def sampleReply (content : List ContentPart) : AiResponse where
  id := "resp"
  model := "claude-x"
  message := { role := .assistant, content := content }
  finishReason := .stop
  usage := {}

theorem sampleBody_accepted : requestFromAnthropic id sampleBody = .ok sampleRequest := by
  decide +kernel

/-- The theorem at a text and a tool use, sent whole and streamed. -/
theorem returned_turn_sample :
    TurnParsed id sampleBody sampleRequest
        (((responseToAnthropic (sampleReply [.text "a", .toolUse "t1" "f" (.bool true)])).getArray
          "content").getD []) [.text "a", .toolUse "t1" "f" (.bool true)] ∧
      TurnParsed id sampleBody sampleRequest
        (reassembled (fun _ => .bool true)
          (({ id := "", model := "" } : AnthropicStreamEncoder).encodeStream
            [.messageStart "" "", .textDelta "a", .toolCallStart ⟨0, "t1", "f"⟩,
              .toolCallArgsDelta 0 "true", .messageEnd .stop]))
        [.text "a", .toolUse "t1" "f" (.bool true)] := by
  have hno : ∀ part ∈ (sampleReply [.text "a", .toolUse "t1" "f" (.bool true)]).message.content,
      part.isReasoning = false := by decide
  have hplays : PlaysResponse (fun _ => "true")
      (sampleReply [.text "a", .toolUse "t1" "f" (.bool true)])
      [.messageStart "" "", .textDelta "a", .toolCallStart ⟨0, "t1", "f"⟩,
        .toolCallArgsDelta 0 "true", .messageEnd .stop] :=
    ⟨"", "", _, .text "a" (.textDone (.toolUse 0 "t1" "f" (.bool true)
      (.toolArgs "true" (.toolDone .nil)))), rfl⟩
  obtain ⟨hwhole, hstream⟩ := returned_turn_iff sampleBody_accepted
    (sampleReply [.text "a", .toolUse "t1" "f" (.bool true)])
  refine ⟨hwhole.mpr hno, (hstream (fun _ => .bool true) (fun _ => "true") ?_ _ hplays "" "").mpr
    ⟨hno, by decide, rfl, trivial⟩⟩
  intro id name args hmem
  simp [sampleReply] at hmem
  exact hmem.2.2.symm

/-- A thinking block comes back and is refused, sent whole and streamed. -/
theorem thinking_turn_refused :
    requestFromAnthropic id sampleBody = .ok sampleRequest ∧
      requestFromAnthropic id (appendTurn (assistantMessage
          (((responseToAnthropic (sampleReply [.reasoning "why" none, .text "a"])).getArray
            "content").getD [])) sampleBody) =
        .error "unsupported Anthropic assistant content block `thinking`" ∧
      requestFromAnthropic id (appendTurn (assistantMessage
          (reassembled (fun _ => .null)
            (({ id := "", model := "" } : AnthropicStreamEncoder).encodeStream
              [.messageStart "" "", .reasoningDelta "why", .textDelta "a", .messageEnd .stop])))
          sampleBody) =
        .error "unsupported Anthropic assistant content block `thinking`" := by
  refine ⟨sampleBody_accepted, by decide +kernel, by decide +kernel⟩

end Switchback
