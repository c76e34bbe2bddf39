import Switchback.Protocols.Instructions

/-!
# Cache breakpoints in Messages bodies

A breakpoint is a `cache_control` on a block of the system, on a tool or on a block of a message.
-/

namespace Switchback

namespace Breakpoints

open Lib

/-! ### Blocks -/

def hasBreakpoint (block : Json) : Bool := (block.get "cache_control").isSome

/-- The block without its breakpoint. -/
def unmark : Json → Json
  | .obj fields => .obj (fields.filter fun p => p.1 ≠ "cache_control")
  | block => block

/-- A list of blocks without their breakpoints. -/
def unmarkAll : Json → Json
  | .arr blocks => .arr (blocks.map unmark)
  | v => v

/-- A list of one text block is its text. -/
def readText : Json → Json
  | .arr [block] => ((block.getStr "text").map Json.str).getD (.arr [block])
  | v => v

def plainMessage : Json → Json
  | .obj fields =>
      .obj (fields.map fun p => (p.1, if p.1 = "content" then unmarkAll p.2 else p.2))
  | v => v

def plainMember (key : String) (v : Json) : Json :=
  match key with
  | "system" => readText (unmarkAll v)
  | "tools" => unmarkAll v
  | "messages" =>
      match v with
      | .arr messages => .arr (messages.map plainMessage)
      | v => v
  | _ => v

/-- The body without its breakpoints. -/
def plain : Json → Json
  | .obj fields => .obj (fields.map fun p => (p.1, plainMember p.1 p.2))
  | v => v

/-- The blocks of a body that can carry a breakpoint. -/
def blocks (body : Json) : List Json :=
  (body.getArray "system").getD [] ++ (body.getArray "tools").getD [] ++
    ((body.getArray "messages").getD []).flatMap fun message =>
      (message.getArray "content").getD []

def breakpoints (body : Json) : ℕ := (blocks body).countP hasBreakpoint

/-- The request without its hints. -/
def withoutHints (req : AiRequest) : AiRequest :=
  { req with
    systemCacheHint := none
    toolsCacheHint := none
    messages := req.messages.map fun m => { m with cacheHint := none } }

/-- The hints for the system and the tools are breakpoints where there is a system text and where
there are tools. -/
def HintsKept (req : AiRequest) (body : Json) : Prop :=
  (∀ hint, req.systemCacheHint = some hint → Instructions.spoken req ≠ [] →
    ∃ block, body.getArray "system" = some [block] ∧
      block.get "cache_control" = some (cacheControlWire hint)) ∧
  ∀ hint, req.toolsCacheHint = some hint → hasAnthropicTools req = true →
    ∃ tools last, body.getArray "tools" = some (tools ++ [last]) ∧
      last.get "cache_control" = some (cacheControlWire hint)

/-- The parameters that are passed through. -/
def passed (req : AiRequest) : List (String × Json) :=
  (req.protocolPassthrough.get anthropicProtocol).getD []

/-- No configuration of a server tool has a breakpoint of its own, and what is passed through in
place of a system text or of tools has none and is not a single text. -/
def Unmarked (req : AiRequest) : Prop :=
  (∀ tool ∈ req.serverTools, hasBreakpoint tool.config = false) ∧
  (Instructions.spoken req = [] →
    ∀ v, OrdMap.getList "system" (passed req) = some v → plainMember "system" v = v) ∧
  (hasAnthropicTools req = false →
    ∀ v, OrdMap.getList "tools" (passed req) = some v → plainMember "tools" v = v)

/-! ### Marking and unmarking -/

section

variable {hint : CacheHint} {block : Json}

theorem hasBreakpoint_obj {fields : List (String × Json)} :
    hasBreakpoint (.obj fields) = false ↔ "cache_control" ∉ fields.map Prod.fst := by
  unfold hasBreakpoint
  show (OrdMap.getList "cache_control" fields).isSome = false ↔ _
  constructor
  · intro h hmem
    induction fields with
    | nil => exact List.not_mem_nil hmem
    | cons p fields ih =>
      rw [OrdMap.getList] at h
      split at h
      · cases h
      · rename_i hne
        rcases List.mem_cons.mp hmem with heq | hmem
        · exact hne heq
        · exact ih h hmem
  · intro h
    rw [OrdMap.getList_eq_none h]
    rfl

theorem hasBreakpoint_mkObj {fields : List (String × Json)}
    (h : "cache_control" ∉ fields.map Prod.fst) : hasBreakpoint (Json.mkObj fields) = false := by
  refine hasBreakpoint_obj.mpr fun hmem => h ?_
  exact OrdMap.mem_keys_ofList.mp hmem

theorem unmark_eq_self_iff : unmark block = block ↔ hasBreakpoint block = false := by
  cases block with
  | obj fields =>
    rw [hasBreakpoint_obj]
    unfold unmark
    rw [Json.obj.injEq, List.filter_eq_self]
    constructor
    · intro h hmem
      obtain ⟨p, hp, heq⟩ := List.mem_map.mp hmem
      exact of_decide_eq_true (h p hp) heq
    · intro h p hp
      exact decide_eq_true fun heq => h (List.mem_map.mpr ⟨p, hp, heq⟩)
  | null => exact iff_of_true rfl rfl
  | bool b => exact iff_of_true rfl rfl
  | num n => exact iff_of_true rfl rfl
  | str s => exact iff_of_true rfl rfl
  | arr l => exact iff_of_true rfl rfl

theorem map_unmark_eq_self_iff {l : List Json} :
    l.map unmark = l ↔ ∀ b ∈ l, hasBreakpoint b = false := by
  induction l with
  | nil => exact iff_of_true rfl fun b hb => absurd hb List.not_mem_nil
  | cons b l ih =>
    rw [List.map_cons, List.cons_eq_cons, ih, unmark_eq_self_iff, List.forall_mem_cons]

theorem filter_insertList {k : String} {v : Json} (fields : List (String × Json)) :
    (OrdMap.insertList k v fields).filter (fun p => p.1 ≠ k) = fields.filter fun p => p.1 ≠ k := by
  induction fields with
  | nil => simp [OrdMap.insertList]
  | cons p fields ih =>
    obtain ⟨k', v'⟩ := p
    rw [OrdMap.insertList]
    split_ifs with hlt heq
    · rw [List.filter_cons_of_neg (by simp)]
    · subst heq
      rw [List.filter_cons_of_neg (by simp), List.filter_cons_of_neg (by simp)]
    · rw [List.filter_cons_of_pos (by simpa using Ne.symm heq),
        List.filter_cons_of_pos (by simpa using Ne.symm heq), ih]

@[simp] theorem unmark_stamp : unmark (stamp hint block) = unmark block := by
  cases block with
  | obj fields => exact congrArg Json.obj (filter_insertList fields)
  | null => rfl
  | bool b => rfl
  | num n => rfl
  | str s => rfl
  | arr l => rfl

theorem get_unmark {k : String} (hk : k ≠ "cache_control") :
    (unmark block).get k = block.get k := by
  cases block with
  | obj fields =>
    show OrdMap.getList k (fields.filter fun p => p.1 ≠ "cache_control") = OrdMap.getList k fields
    rw [OrdMap.getList_filter (fun key => key ≠ "cache_control"), if_pos (by simpa using hk)]
  | null => rfl
  | bool b => rfl
  | num n => rfl
  | str s => rfl
  | arr l => rfl

theorem map_unmark_stampLast (l : List Json) : (stampLast hint l).map unmark = l.map unmark := by
  unfold stampLast
  rcases List.eq_nil_or_concat l with rfl | ⟨init, last, rfl⟩
  · rfl
  · rw [List.concat_eq_append, List.getLast?_concat, List.dropLast_concat]
    simp

theorem countP_stampLast_le (l : List Json) :
    (stampLast hint l).countP hasBreakpoint ≤ l.countP hasBreakpoint + 1 := by
  unfold stampLast
  rcases List.eq_nil_or_concat l with rfl | ⟨init, last, rfl⟩
  · exact Nat.zero_le _
  · rw [List.concat_eq_append, List.getLast?_concat, List.dropLast_concat]
    dsimp only
    rw [List.countP_append, List.countP_append, List.countP_singleton, List.countP_singleton]
    split_ifs <;> omega

end

/-! ### Messages -/

section

variable {st st' : AnthropicTurns} {m : Message}

variable {bs : List Json}

theorem hasBreakpoint_wireBlocks {role : Role} {part : ContentPart}
    (h : anthropicWireBlocks role part = .ok bs) : ∀ b ∈ bs, hasBreakpoint b = false := by
  cases part with
  | text text =>
    cases h
    split
    · exact fun b hb => absurd hb List.not_mem_nil
    · exact List.forall_mem_singleton.mpr (hasBreakpoint_mkObj (by simp))
  | image source detail =>
    unfold anthropicWireBlocks at h
    dsimp only at h
    split at h
    · cases h
    · obtain ⟨block, hblock, rfl⟩ := map_eq_ok_iff.mp h
      obtain ⟨_, -, hblock⟩ := bind_eq_ok_iff.mp hblock
      obtain ⟨source, -, hblock⟩ := bind_eq_ok_iff.mp hblock
      cases hblock
      exact List.forall_mem_singleton.mpr (hasBreakpoint_mkObj (by simp))
  | toolUse id name args =>
    cases h
    exact List.forall_mem_singleton.mpr (hasBreakpoint_mkObj (by simp))
  | toolResult toolUseId content contentParts isError =>
    cases h
    refine List.forall_mem_singleton.mpr (hasBreakpoint_mkObj ?_)
    cases isError <;> simp
  | reasoning text signature =>
    cases h
    cases signature with
    | none => exact fun b hb => absurd hb List.not_mem_nil
    | some signature => exact List.forall_mem_singleton.mpr (hasBreakpoint_mkObj (by simp))
  | citation url title snippet => cases h; exact fun b hb => absurd hb List.not_mem_nil
  | serverToolUse id name args => cases h; exact fun b hb => absurd hb List.not_mem_nil
  | serverToolResult id name content => cases h; exact fun b hb => absurd hb List.not_mem_nil

theorem hasBreakpoint_contentBlocks (h : messageContentBlocks m = .ok bs) :
    ∀ b ∈ bs, hasBreakpoint b = false := by
  obtain ⟨parts, hparts, rfl⟩ := map_eq_ok_iff.mp h
  intro b hb
  obtain ⟨blocks, hblocks, hb⟩ := List.mem_flatten.mp hb
  obtain ⟨part, -, hpart⟩ := exists_of_mem_mapM hparts hblocks
  exact hasBreakpoint_wireBlocks hpart b hb

/-- The blocks of the messages have no breakpoints yet. -/
def Fresh (messages : List AnthropicMessage) : Prop :=
  ∀ message ∈ messages, ∀ b ∈ message.content, hasBreakpoint b = false

/-- The variables of the loop over the messages without their hints. -/
def bare (st : AnthropicTurns) : AnthropicTurns := { st with messageHints := [] }

theorem Fresh.push (hst : Fresh st.messages) (role : String)
    (hbs : ∀ b ∈ bs, hasBreakpoint b = false) (hint : Option CacheHint) :
    Fresh (st.push role bs hint).messages := by
  unfold AnthropicTurns.push
  split
  · exact hst
  · intro message hmem
    rcases List.mem_append.mp hmem with hmem | hmem
    · exact hst message hmem
    · rw [List.mem_singleton.mp hmem]
      exact hbs

theorem bare_push (role : String) (bs : List Json) (hint : Option CacheHint) :
    (bare st).push role bs none = bare (st.push role bs hint) := by
  unfold AnthropicTurns.push bare
  split
  · rfl
  · rfl

theorem turn_fresh (hst : Fresh st.messages) (h : anthropicTurn st m = .ok st') :
    Fresh st'.messages ∧
      anthropicTurn (bare st) { m with cacheHint := none } = .ok (bare st') := by
  obtain ⟨role, content, hint⟩ := m
  unfold anthropicTurn at h ⊢
  have hpush (role : String) {blocks : List Json}
      (hblocks : ∀ b ∈ blocks, hasBreakpoint b = false) :
      Fresh (st.push role blocks hint).messages ∧
        (bare st).push role blocks none = bare (st.push role blocks hint) :=
    ⟨hst.push role hblocks hint, bare_push role blocks hint⟩
  cases role with
  | system =>
    obtain ⟨_, hreject, h⟩ := bind_eq_ok_iff.mp h
    cases h
    refine ⟨?_, bind_eq_ok_iff.mpr ⟨(), hreject, ?_⟩⟩
    · split
      · exact hst
      · exact hst
    · show Except.ok (if partsText content = "" then bare st else _) =
        .ok (bare (if partsText content = "" then st else _))
      split
      · rfl
      · rfl
  | assistant =>
    obtain ⟨blocks, hblocks, h⟩ := bind_eq_ok_iff.mp h
    cases h
    obtain ⟨hfresh, hbare⟩ := hpush "assistant" (hasBreakpoint_contentBlocks hblocks)
    exact ⟨hfresh, bind_eq_ok_iff.mpr ⟨blocks, hblocks, congrArg Except.ok hbare⟩⟩
  | user =>
    obtain ⟨blocks, hblocks, h⟩ := bind_eq_ok_iff.mp h
    cases h
    obtain ⟨hfresh, hbare⟩ := hpush "user" (hasBreakpoint_contentBlocks hblocks)
    exact ⟨hfresh, bind_eq_ok_iff.mpr ⟨blocks, hblocks, congrArg Except.ok hbare⟩⟩
  | tool =>
    obtain ⟨blocks, hblocks, h⟩ := bind_eq_ok_iff.mp h
    cases h
    obtain ⟨hfresh, hbare⟩ := hpush "user" (hasBreakpoint_contentBlocks hblocks)
    exact ⟨hfresh, bind_eq_ok_iff.mpr ⟨blocks, hblocks, congrArg Except.ok hbare⟩⟩

theorem turns_fresh {messages : List Message} (hst : Fresh st.messages)
    (h : messages.foldlM anthropicTurn st = .ok st') :
    Fresh st'.messages ∧
      (messages.map fun m => { m with cacheHint := none }).foldlM anthropicTurn (bare st) =
        .ok (bare st') := by
  induction messages generalizing st with
  | nil =>
    cases h
    exact ⟨hst, rfl⟩
  | cons m messages ih =>
    rw [List.foldlM_cons] at h
    obtain ⟨st₁, hturn, h⟩ := bind_eq_ok_iff.mp h
    obtain ⟨hfresh, hbare⟩ := turn_fresh hst hturn
    obtain ⟨hfresh', hbare'⟩ := ih hfresh h
    refine ⟨hfresh', ?_⟩
    rw [List.map_cons, List.foldlM_cons]
    exact bind_eq_ok_iff.mpr ⟨bare st₁, hbare, hbare'⟩

end

/-! ### Kept hints -/

theorem length_keptHints_le {n : ℕ} (hn : n ≤ 2) (hints : List (ℕ × CacheHint)) :
    n + (keptHints n hints).length ≤ 4 := by
  unfold keptHints
  split
  · rw [List.length_drop]
    omega
  · omega

/-- The blocks of a list of messages. -/
def messageBlocks (messages : List AnthropicMessage) : List Json :=
  messages.flatMap AnthropicMessage.content

theorem countP_modify_le (hint : CacheHint) (messages : List AnthropicMessage) (i : ℕ) :
    (messageBlocks (messages.modify i fun message =>
      { message with content := stampLast hint message.content })).countP hasBreakpoint ≤
        (messageBlocks messages).countP hasBreakpoint + 1 := by
  unfold messageBlocks
  induction messages generalizing i with
  | nil =>
    rw [List.modify_nil]
    exact Nat.zero_le _
  | cons message messages ih =>
    cases i with
    | zero =>
      rw [List.modify_zero_cons, List.flatMap_cons, List.flatMap_cons, List.countP_append,
        List.countP_append]
      have hle := @countP_stampLast_le hint message.content
      dsimp only
      omega
    | succ i =>
      rw [List.modify_succ_cons, List.flatMap_cons, List.flatMap_cons, List.countP_append,
        List.countP_append]
      have hle := ih i
      omega

theorem countP_kept_le (hints : List (ℕ × CacheHint)) (messages : List AnthropicMessage) :
    (messageBlocks (hints.foldl setLastBlockCacheControl messages)).countP hasBreakpoint ≤
      (messageBlocks messages).countP hasBreakpoint + hints.length := by
  induction hints generalizing messages with
  | nil => exact le_rfl
  | cons hint hints ih =>
    have hle : (messageBlocks (setLastBlockCacheControl messages hint)).countP hasBreakpoint ≤ _ :=
      countP_modify_le hint.2 messages hint.1
    have hrest := ih (setLastBlockCacheControl messages hint)
    rw [List.foldl_cons, List.length_cons]
    omega

def unmarkMessage (message : AnthropicMessage) : AnthropicMessage :=
  { message with content := message.content.map unmark }

theorem map_unmarkMessage_kept (hints : List (ℕ × CacheHint)) (messages : List AnthropicMessage) :
    (hints.foldl setLastBlockCacheControl messages).map unmarkMessage =
      messages.map unmarkMessage := by
  induction hints generalizing messages with
  | nil => rfl
  | cons hint hints ih =>
    rw [List.foldl_cons, ih]
    unfold setLastBlockCacheControl
    generalize hint.1 = i
    induction messages generalizing i with
    | nil => rw [List.modify_nil]
    | cons message messages ihm =>
      cases i with
      | zero =>
        rw [List.modify_zero_cons, List.map_cons, List.map_cons]
        unfold unmarkMessage
        dsimp only
        rw [map_unmark_stampLast]
      | succ i => rw [List.modify_succ_cons, List.map_cons, List.map_cons, ihm]

theorem map_unmarkMessage_fresh {messages : List AnthropicMessage} (h : Fresh messages) :
    messages.map unmarkMessage = messages := by
  refine (List.map_congr_left fun message hmem => ?_).trans (List.map_id messages)
  unfold unmarkMessage
  rw [map_unmark_eq_self_iff.mpr (h message hmem)]
  rfl

theorem toJson_eq (message : AnthropicMessage) :
    message.toJson = .obj [("content", .arr message.content), ("role", .str message.role)] := by
  unfold AnthropicMessage.toJson Json.mkObj OrdMap.ofList
  simp only [List.foldl_cons, List.foldl_nil, OrdMap.insert, OrdMap.empty, OrdMap.insertList]
  rw [if_pos (by decide)]

theorem plainMessage_toJson (message : AnthropicMessage) :
    plainMessage message.toJson = (unmarkMessage message).toJson := by
  rw [toJson_eq, toJson_eq]
  rfl

/-! ### The members -/

section

variable {req : AiRequest} {upstreamModel : String} {stream : Bool} {turns : AnthropicTurns}
  {serverTools : List Json}

theorem hasBreakpoint_tool (tool : ToolSpec) : hasBreakpoint (anthropicTool tool) = false := by
  refine hasBreakpoint_mkObj ?_
  cases tool.description with
  | none => cases tool.deferLoading <;> simp
  | some description => cases tool.deferLoading <;> simp

/-- The tools of a body. -/
def bodyTools (req : AiRequest) (serverTools : List Json) : List Json :=
  req.tools.map anthropicTool ++ serverTools

theorem plain_system (hint : Option CacheHint) (text : String) :
    plainMember "system" (anthropicSystem hint text) = .str text := by
  unfold anthropicSystem
  cases hint with
  | none => rfl
  | some hint =>
    have htext : (unmark (Json.mkObj [("type", .str "text"), ("text", .str text),
        ("cache_control", cacheControlWire hint)])).getStr "text" = some text := by
      unfold Json.getStr
      rw [get_unmark (by decide), Json.get_mkObj (by simp)]
      rfl
    show ((Json.getStr "text" (unmark _)).map Json.str).getD _ = _
    rw [htext]
    rfl

theorem plain_tools (hint : Option CacheHint) (tools : List Json) :
    plainMember "tools" (.arr (anthropicTools hint tools)) = .arr (tools.map unmark) := by
  unfold anthropicTools
  cases hint with
  | none => rfl
  | some hint => exact congrArg Json.arr (map_unmark_stampLast tools)

theorem plain_messages (hints : List (ℕ × CacheHint)) {messages : List AnthropicMessage}
    (h : Fresh messages) :
    plainMember "messages"
        (.arr ((hints.foldl setLastBlockCacheControl messages).map AnthropicMessage.toJson)) =
      .arr (messages.map AnthropicMessage.toJson) := by
  have hplain : plainMessage ∘ AnthropicMessage.toJson = AnthropicMessage.toJson ∘ unmarkMessage :=
    funext plainMessage_toJson
  show Json.arr (List.map plainMessage (List.map AnthropicMessage.toJson _)) = _
  rw [List.map_map, hplain, ← List.map_map, map_unmarkMessage_kept, map_unmarkMessage_fresh h]

theorem plain_temperature (t : Option F32) :
    (temperatureField t).map (fun p => (p.1, plainMember p.1 p.2)) = temperatureField t := by
  unfold temperatureField
  cases (t.map fun t => (Fp.convert t : F64)).filter Fp.isFinite with
  | none => rfl
  | some t => rfl

theorem members_plain (hturns : Fresh turns.messages)
    (htools : ∀ config ∈ serverTools, hasBreakpoint config = false) :
    (anthropicMembers req upstreamModel stream turns serverTools).map
        (fun p => (p.1, plainMember p.1 p.2)) =
      anthropicMembers (withoutHints req) upstreamModel stream (bare turns) serverTools := by
  have hkept (n : ℕ) : keptHints n [] = [] := by
    unfold keptHints
    split
    · rfl
    · rfl
  have hbody : (bodyTools req serverTools).map unmark = bodyTools req serverTools := by
    refine map_unmark_eq_self_iff.mpr fun b hb => ?_
    rcases List.mem_append.mp hb with hb | hb
    · obtain ⟨tool, -, rfl⟩ := List.mem_map.mp hb
      exact hasBreakpoint_tool tool
    · exact htools b hb
  unfold anthropicMembers bare
  dsimp only
  rw [hkept, List.map_append, List.map_append, List.map_append]
  congr 1
  · congr 1
    · congr 1
      · simp only [List.map_cons, List.map_nil, plain_messages _ hturns]
        rfl
      · split
        · rfl
        · rw [List.map_singleton, plain_system]
          rfl
    · show List.map _ (if hasAnthropicTools req then _ else _) =
        if hasAnthropicTools req then _ else _
      split
      · rw [List.map_singleton, plain_tools]
        show [("tools", Json.arr ((bodyTools req serverTools).map unmark))] = _
        rw [hbody]
        rfl
      · rfl
  · exact plain_temperature req.temperature

variable {k : String}

theorem getList_temperatureField (hk : k ≠ "temperature") (t : Option F32) :
    OrdMap.getList k (temperatureField t) = none :=
  OrdMap.getList_eq_none fun hmem =>
    hk (List.mem_singleton.mp ((keys_temperatureField t).subset hmem))

theorem getList_system :
    OrdMap.getList "system" (anthropicMembers req upstreamModel stream turns serverTools) =
      if turns.systemChunks.isEmpty then none
      else some (anthropicSystem req.systemCacheHint (Text.join "\n" turns.systemChunks)) := by
  unfold anthropicMembers
  dsimp only
  rw [OrdMap.getList_append, OrdMap.getList_append, OrdMap.getList_append,
    getList_temperatureField (by decide), Option.or_none]
  split
  · split
    · rfl
    · rfl
  · rfl

theorem getList_tools :
    OrdMap.getList "tools" (anthropicMembers req upstreamModel stream turns serverTools) =
      if hasAnthropicTools req then
        some (.arr (anthropicTools (req.toolsCacheHint.filter fun _ => hasAnthropicTools req)
          (bodyTools req serverTools)))
      else none := by
  unfold anthropicMembers
  dsimp only
  rw [OrdMap.getList_append, OrdMap.getList_append, OrdMap.getList_append,
    getList_temperatureField (by decide), Option.or_none]
  split
  · split
    · rfl
    · rfl
  · split
    · rfl
    · rfl

theorem getList_tools_bare :
    OrdMap.getList "tools" (anthropicMembers (withoutHints req) upstreamModel stream (bare turns)
        serverTools) =
      if hasAnthropicTools req then some (.arr (bodyTools req serverTools)) else none :=
  getList_tools

theorem getList_system_bare :
    OrdMap.getList "system" (anthropicMembers (withoutHints req) upstreamModel stream (bare turns)
        serverTools) =
      if turns.systemChunks.isEmpty then none
      else some (.str (Text.join "\n" turns.systemChunks)) :=
  getList_system

theorem plainMember_of_ne (hsystem : k ≠ "system") (htools : k ≠ "tools")
    (hmessages : k ≠ "messages") (v : Json) : plainMember k v = v := by
  unfold plainMember
  split
  · exact absurd rfl hsystem
  · exact absurd rfl htools
  · exact absurd rfl hmessages
  · rfl

theorem serverTools_eq {tools : List ServerToolSpec}
    (h : tools.mapM anthropicServerTool = .ok serverTools) :
    serverTools = tools.map ServerToolSpec.config := by
  have hall := mapM_eq_ok_iff.mp h
  clear h
  induction hall with
  | nil => rfl
  | cons htool _ ih =>
    unfold anthropicServerTool at htool
    split at htool
    · cases htool
    · cases htool
      rw [List.map_cons, ih]

/-- The body of the members that are set and the parameters that are passed through. -/
def bodyOf (members passed : List (String × Json)) : Json :=
  .obj ((OrdMap.ofList members).orInsertAll passed).entries

theorem plain_bodyOf_iff {members members' passed : List (String × Json)}
    (hmembers : (members.map Prod.fst).Nodup) (hmembers' : (members'.map Prod.fst).Nodup) :
    bodyOf members' passed = plain (bodyOf members passed) ↔
      ∀ k, (OrdMap.getList k members').or (OrdMap.getList k passed) =
        ((OrdMap.getList k members).or (OrdMap.getList k passed)).map (plainMember k) := by
  have hget (k : String) : ((OrdMap.ofList members).orInsertAll passed).get k =
      (OrdMap.getList k members).or (OrdMap.getList k passed) := by
    rw [OrdMap.get_orInsertAll, OrdMap.get_ofList hmembers]
  have hget' (k : String) : ((OrdMap.ofList members').orInsertAll passed).get k =
      (OrdMap.getList k members').or (OrdMap.getList k passed) := by
    rw [OrdMap.get_orInsertAll, OrdMap.get_ofList hmembers']
  constructor
  · intro h k
    have hk := congrArg (Json.get k) h
    rw [← hget, ← hget', ← OrdMap.get_mapWithKey]
    exact hk
  · intro h
    have hmap : (OrdMap.ofList members').orInsertAll passed =
        ((OrdMap.ofList members).orInsertAll passed).mapWithKey plainMember := by
      refine OrdMap.ext_get fun k => ?_
      rw [OrdMap.get_mapWithKey, hget, hget', h]
    exact congrArg (fun m : OrdMap String Json => Json.obj m.entries) hmap

theorem withoutHints_ok {body : Json}
    (h : requestToAnthropicWire req upstreamModel stream = .ok body) :
    ∃ turns, Fresh turns.messages ∧ turns.systemChunks = Instructions.spoken req ∧
      body = bodyOf (anthropicMembers req upstreamModel stream turns
        (req.serverTools.map ServerToolSpec.config)) (passed req) ∧
      requestToAnthropicWire (withoutHints req) upstreamModel stream =
        .ok (bodyOf (anthropicMembers (withoutHints req) upstreamModel stream (bare turns)
          (req.serverTools.map ServerToolSpec.config)) (passed req)) := by
  obtain ⟨hvalid, turns, hturns, serverTools, htools, rfl⟩ :=
    requestToAnthropicWire_eq_ok_iff.mp h
  obtain rfl := serverTools_eq htools
  obtain ⟨hfresh, hbare⟩ := turns_fresh (fun _ hmem => absurd hmem List.not_mem_nil) hturns
  have hchunks : turns.systemChunks = Instructions.spoken req := by
    rw [Instructions.systemChunks_turns hturns, Instructions.spoken_eq,
      Instructions.filter_systemTurns]
  have hparts : (withoutHints req).validateCanonical = .ok () := by
    unfold AiRequest.validateCanonical AiRequest.parts withoutHints
    rw [List.flatMap_map]
    exact hvalid
  exact ⟨turns, hfresh, hchunks, rfl,
    requestToAnthropicWire_eq_ok_iff.mpr ⟨hparts, bare turns, hbare, _, htools, rfl⟩⟩

/-- What goes out for the request without hints is the body without its breakpoints exactly when
nothing else carries any. -/
theorem plain_iff (hturns : Fresh turns.messages)
    (hchunks : turns.systemChunks = Instructions.spoken req) :
    bodyOf (anthropicMembers (withoutHints req) upstreamModel stream (bare turns)
        (req.serverTools.map ServerToolSpec.config)) (passed req) =
      plain (bodyOf (anthropicMembers req upstreamModel stream turns
        (req.serverTools.map ServerToolSpec.config)) (passed req)) ↔ Unmarked req := by
  rw [plain_bodyOf_iff (nodup_anthropicMembers _ _ _ _ _) (nodup_anthropicMembers _ _ _ _ _)]
  constructor
  · intro h
    have hsystem := h "system"
    have htools := h "tools"
    rw [getList_system_bare, getList_system] at hsystem
    rw [getList_tools_bare, getList_tools] at htools
    refine ⟨?_, ?_, ?_⟩
    · intro tool htool
      have hhas : hasAnthropicTools req = true := by
        have hne : req.serverTools.isEmpty = false := by
          rw [List.isEmpty_eq_false_iff]
          exact List.ne_nil_of_mem htool
        unfold hasAnthropicTools
        rw [hne, Bool.not_false, Bool.or_true]
      rw [if_pos hhas, if_pos hhas, Option.some_or, Option.some_or, Option.map_some,
        plain_tools] at htools
      have htools := (Json.arr.inj (Option.some.inj htools)).symm
      exact map_unmark_eq_self_iff.mp htools _
        (List.mem_append_right _ (List.mem_map.mpr ⟨tool, htool, rfl⟩))
    · intro hspoken v hv
      have hempty : turns.systemChunks.isEmpty = true := by rw [hchunks, hspoken]; rfl
      rw [if_pos hempty, if_pos hempty, Option.none_or, hv] at hsystem
      exact (Option.some.inj hsystem).symm
    · intro hhas v hv
      rw [if_neg (by rw [hhas]; exact Bool.false_ne_true),
        if_neg (by rw [hhas]; exact Bool.false_ne_true), Option.none_or, hv] at htools
      exact (Option.some.inj htools).symm
  · rintro ⟨hconfigs, hsystem, htools⟩ k
    have hunmarked : ∀ config ∈ req.serverTools.map ServerToolSpec.config,
        hasBreakpoint config = false := by
      intro config hmem
      obtain ⟨tool, htool, rfl⟩ := List.mem_map.mp hmem
      exact hconfigs tool htool
    rw [← members_plain hturns hunmarked, OrdMap.getList_mapWithKey]
    cases hmember : OrdMap.getList k (anthropicMembers req upstreamModel stream turns
      (req.serverTools.map ServerToolSpec.config)) with
    | some v => rfl
    | none =>
      rw [Option.map_none, Option.none_or]
      cases hv : OrdMap.getList k (passed req) with
      | none => rfl
      | some v =>
        rw [Option.map_some, Option.some_inj]
        by_cases hs : k = "system"
        · subst hs
          rw [getList_system] at hmember
          refine (hsystem ?_ v hv).symm
          rw [← hchunks]
          by_contra hne
          rw [if_neg (by simpa using hne)] at hmember
          cases hmember
        · by_cases ht : k = "tools"
          · subst ht
            rw [getList_tools] at hmember
            refine (htools ?_ v hv).symm
            by_contra hhas
            rw [if_pos (by simpa using hhas)] at hmember
            cases hmember
          · refine (plainMember_of_ne hs ht ?_ v).symm
            rintro rfl
            cases hmember

/-! ### Capped -/

theorem getArray_bodyOf {members passed : List (String × Json)}
    (hnodup : (members.map Prod.fst).Nodup) (k : String) :
    (bodyOf members passed).getArray k =
      ((OrdMap.getList k members).or (OrdMap.getList k passed)).bind Json.asArray := by
  unfold Json.getArray bodyOf
  show (((OrdMap.ofList members).orInsertAll passed).get k).bind Json.asArray = _
  rw [OrdMap.get_orInsertAll, OrdMap.get_ofList hnodup]

theorem countP_eq_zero_of {l : List Json} (h : ∀ b ∈ l, hasBreakpoint b = false) :
    l.countP hasBreakpoint = 0 := by
  rw [List.countP_eq_zero]
  intro b hb
  rw [h b hb]
  exact Bool.false_ne_true

theorem countP_passed (hk : k = "system" ∨ k = "tools") {v : Json}
    (h : plainMember k v = v) : (v.asArray.getD []).countP hasBreakpoint = 0 := by
  cases v with
  | arr l =>
    refine countP_eq_zero_of (map_unmark_eq_self_iff.mp ?_)
    rcases hk with rfl | rfl
    · -- a list of one text would have become a string
      have hread : readText (.arr (l.map unmark)) = .arr l := h
      unfold readText at hread
      split at hread
      · rename_i block heq
        cases htext : block.getStr "text" with
        | some text =>
          rw [htext] at hread
          cases hread
        | none =>
          rw [htext] at hread
          show l.map unmark = l
          rw [Json.arr.inj heq]
          exact Json.arr.inj hread
      · exact Json.arr.inj hread
    · exact Json.arr.inj h
  | null => rfl
  | bool b => rfl
  | num n => rfl
  | str s => rfl
  | obj fields => rfl

theorem countP_system_le (hint : Option CacheHint) (text : String) :
    (((anthropicSystem hint text).asArray).getD []).countP hasBreakpoint ≤ hint.toList.length := by
  unfold anthropicSystem
  cases hint with
  | none => exact le_rfl
  | some hint => exact List.countP_le_length

theorem countP_tools_le (hint : Option CacheHint) {tools : List Json}
    (h : ∀ b ∈ tools, hasBreakpoint b = false) :
    (anthropicTools hint tools).countP hasBreakpoint ≤ hint.toList.length := by
  unfold anthropicTools
  cases hint with
  | none => exact (countP_eq_zero_of h).le
  | some hint =>
    have hle := @countP_stampLast_le hint tools
    rw [countP_eq_zero_of h] at hle
    exact hle

theorem getArray_content (message : AnthropicMessage) :
    (message.toJson.getArray "content").getD [] = message.content := by
  unfold AnthropicMessage.toJson Json.getArray
  rw [Json.get_mkObj (by simp)]
  rfl

theorem hasBreakpoint_bodyTools (hconfigs : ∀ tool ∈ req.serverTools,
    hasBreakpoint tool.config = false) :
    ∀ b ∈ bodyTools req (req.serverTools.map ServerToolSpec.config), hasBreakpoint b = false := by
  intro b hb
  rcases List.mem_append.mp hb with hb | hb
  · obtain ⟨tool, -, rfl⟩ := List.mem_map.mp hb
    exact hasBreakpoint_tool tool
  · obtain ⟨tool, htool, rfl⟩ := List.mem_map.mp hb
    exact hconfigs tool htool

theorem breakpoints_le (hturns : Fresh turns.messages)
    (hchunks : turns.systemChunks = Instructions.spoken req) (h : Unmarked req) :
    breakpoints (bodyOf (anthropicMembers req upstreamModel stream turns
      (req.serverTools.map ServerToolSpec.config)) (passed req)) ≤ 4 := by
  obtain ⟨hconfigs, hsystem, htools⟩ := h
  set toolsHint := req.toolsCacheHint.filter fun _ => hasAnthropicTools req with htoolsHint
  set stable := req.systemCacheHint.toList.length + toolsHint.toList.length with hstable
  have hnodup := nodup_anthropicMembers req upstreamModel stream turns
    (req.serverTools.map ServerToolSpec.config)
  have hsystemCount : (((bodyOf (anthropicMembers req upstreamModel stream turns
      (req.serverTools.map ServerToolSpec.config)) (passed req)).getArray "system").getD []).countP
        hasBreakpoint ≤ req.systemCacheHint.toList.length := by
    rw [getArray_bodyOf hnodup, getList_system]
    split
    · rename_i hempty
      rw [Option.none_or]
      cases hv : OrdMap.getList "system" (passed req) with
      | none => exact Nat.zero_le _
      | some v =>
        have hspoken : Instructions.spoken req = [] := by
          rw [← hchunks]
          exact List.isEmpty_iff.mp hempty
        exact (countP_passed (.inl rfl) (hsystem hspoken v hv)).le.trans (Nat.zero_le _)
    · exact countP_system_le _ _
  have htoolsCount : (((bodyOf (anthropicMembers req upstreamModel stream turns
      (req.serverTools.map ServerToolSpec.config)) (passed req)).getArray "tools").getD []).countP
        hasBreakpoint ≤ toolsHint.toList.length := by
    rw [getArray_bodyOf hnodup, getList_tools]
    split
    · exact countP_tools_le _ (hasBreakpoint_bodyTools hconfigs)
    · rename_i hhas
      rw [Option.none_or]
      cases hv : OrdMap.getList "tools" (passed req) with
      | none => exact Nat.zero_le _
      | some v =>
        exact (countP_passed (.inr rfl) (htools (by simpa using hhas) v hv)).le.trans
          (Nat.zero_le _)
  have hmessages : (((bodyOf (anthropicMembers req upstreamModel stream turns
      (req.serverTools.map ServerToolSpec.config)) (passed req)).getArray "messages").getD []).flatMap
        (fun message => (message.getArray "content").getD []) =
      messageBlocks ((keptHints stable turns.messageHints).foldl setLastBlockCacheControl
        turns.messages) := by
    rw [getArray_bodyOf hnodup]
    show List.flatMap _ (List.map AnthropicMessage.toJson _) = _
    rw [List.flatMap_map]
    simp only [getArray_content]
    rfl
  have hfresh : (messageBlocks turns.messages).countP hasBreakpoint = 0 := by
    refine countP_eq_zero_of fun b hb => ?_
    obtain ⟨message, hmem, hb⟩ := List.mem_flatMap.mp hb
    exact hturns message hmem b hb
  have hkept := countP_kept_le (keptHints stable turns.messageHints) turns.messages
  have hone (hint : Option CacheHint) : hint.toList.length ≤ 1 := by cases hint <;> simp
  have htwo : stable ≤ 2 := Nat.add_le_add (hone _) (hone _)
  have hcap := length_keptHints_le htwo turns.messageHints
  unfold breakpoints blocks
  rw [hmessages, List.countP_append, List.countP_append]
  omega

/-! ### Kept -/

theorem stampLast_of_obj (hint : CacheHint) {l : List Json} (hne : l ≠ [])
    (hobj : ∀ b ∈ l, ∃ fields, b = .obj fields) :
    ∃ init last, stampLast hint l = init ++ [last] ∧
      last.get "cache_control" = some (cacheControlWire hint) := by
  unfold stampLast
  rcases List.eq_nil_or_concat l with rfl | ⟨init, last, rfl⟩
  · exact absurd rfl hne
  · rw [List.concat_eq_append] at hobj ⊢
    obtain ⟨fields, rfl⟩ := hobj last (List.mem_append_right _ (List.mem_singleton_self _))
    rw [List.getLast?_concat, List.dropLast_concat]
    refine ⟨init, _, rfl, ?_⟩
    show OrdMap.getList "cache_control" (OrdMap.insertList _ _ _) = _
    rw [OrdMap.getList_insertList, if_pos rfl]

theorem config_obj {tool : ServerToolSpec}
    (h : ∃ json, toolFromAnthropic json = .ok (.inr tool)) :
    ∃ fields, tool.config = .obj fields := by
  obtain ⟨json, h⟩ := h
  unfold toolFromAnthropic at h
  split at h
  · rename_i kind hkind
    cases h
    cases json with
    | obj fields => exact ⟨fields, rfl⟩
    | null => cases hkind
    | bool b => cases hkind
    | num n => cases hkind
    | str s => cases hkind
    | arr l => cases hkind
  · split at h
    · cases h
    · cases h

theorem hintsKept (hchunks : turns.systemChunks = Instructions.spoken req)
    (hingested : ∀ tool ∈ req.serverTools, ∃ json, toolFromAnthropic json = .ok (.inr tool)) :
    HintsKept req (bodyOf (anthropicMembers req upstreamModel stream turns
      (req.serverTools.map ServerToolSpec.config)) (passed req)) := by
  have hnodup := nodup_anthropicMembers req upstreamModel stream turns
    (req.serverTools.map ServerToolSpec.config)
  refine ⟨fun hint hhint hspoken => ?_, fun hint hhint hhas => ?_⟩
  · rw [getArray_bodyOf hnodup, getList_system, hchunks, if_neg (by simpa using hspoken), hhint]
    refine ⟨_, rfl, ?_⟩
    rw [Json.get_mkObj (by simp)]
    rfl
  · rw [getArray_bodyOf hnodup, getList_tools, if_pos hhas, hhint, Option.filter_some,
      if_pos hhas]
    have hne : bodyTools req (req.serverTools.map ServerToolSpec.config) ≠ [] := by
      unfold bodyTools
      intro hnil
      obtain ⟨htools, hservers⟩ := List.append_eq_nil_iff.mp hnil
      rw [List.map_eq_nil_iff] at htools hservers
      unfold hasAnthropicTools at hhas
      rw [htools, hservers] at hhas
      exact Bool.false_ne_true hhas
    have hobj : ∀ b ∈ bodyTools req (req.serverTools.map ServerToolSpec.config),
        ∃ fields, b = .obj fields := by
      intro b hb
      rcases List.mem_append.mp hb with hb | hb
      · obtain ⟨tool, -, rfl⟩ := List.mem_map.mp hb
        exact ⟨_, rfl⟩
      · obtain ⟨tool, htool, rfl⟩ := List.mem_map.mp hb
        exact config_obj (hingested tool htool)
    obtain ⟨init, last, hlast, hmark⟩ := stampLast_of_obj hint hne hobj
    exact ⟨init, last, congrArg some hlast, hmark⟩

end

/-- **When cache breakpoints are capped and inert.**  At most four of them go out, the hints for the
system and the tools are among them, and without them the body is that of the request without hints,
exactly when no server tool brings a breakpoint of its own and nothing that is passed through in
place of the system text or the tools has any. -/
theorem capped_inert_iff (req : AiRequest) (upstreamModel : String) (stream : Bool)
    (hingested : ∀ tool ∈ req.serverTools, ∃ json, toolFromAnthropic json = .ok (.inr tool))
    {body : Json} (h : requestToAnthropicWire req upstreamModel stream = .ok body) :
    (breakpoints body ≤ 4 ∧ HintsKept req body ∧
      requestToAnthropicWire (withoutHints req) upstreamModel stream = .ok (plain body)) ↔
        Unmarked req := by
  obtain ⟨turns, hfresh, hchunks, rfl, hbare⟩ := withoutHints_ok h
  rw [hbare, Except.ok.injEq, plain_iff hfresh hchunks]
  constructor
  · rintro ⟨-, -, hunmarked⟩
    exact hunmarked
  · intro hunmarked
    exact ⟨breakpoints_le hfresh hchunks hunmarked, hintsKept hchunks hingested, hunmarked⟩

/-- A web search of the provider's own, with a breakpoint or without. -/
def webSearch (control : List (String × Json)) : Json :=
  .obj (control ++ [("name", .str "web_search"), ("type", .str "web_search_20250305")])

def searchingRequest (count : ℕ) (control : List (String × Json)) : AiRequest where
  id := "req"
  model := "m"
  system := some "Be brief."
  messages := [{ role := .user, content := [.text "hi"], cacheHint := some ⟨none⟩ }]
  serverTools := List.replicate count
    { protocol := .anthropic, kind := "web_search_20250305", config := webSearch control }
  systemCacheHint := some ⟨none⟩
  toolsCacheHint := some ⟨some 3600⟩

/-- Three hints and a server tool without a breakpoint. -/
theorem capped_inert_search :
    ∃ body, requestToAnthropicWire (searchingRequest 1 []) "m" false = .ok body ∧
      breakpoints body ≤ 4 ∧ HintsKept (searchingRequest 1 []) body ∧
      requestToAnthropicWire (withoutHints (searchingRequest 1 [])) "m" false =
        .ok (plain body) := by
  have hingested : ∀ tool ∈ (searchingRequest 1 []).serverTools,
      ∃ json, toolFromAnthropic json = .ok (.inr tool) := by
    intro tool htool
    rw [List.mem_singleton.mp htool]
    exact ⟨webSearch [], rfl⟩
  have hunmarked : Unmarked (searchingRequest 1 []) := by
    refine ⟨fun tool htool => ?_, fun _ v hv => ?_, fun _ v hv => ?_⟩
    · rw [List.mem_singleton.mp htool]
      rfl
    · cases hv
    · cases hv
  exact ⟨_, rfl, (capped_inert_iff (searchingRequest 1 []) "m" false hingested rfl).mpr hunmarked⟩

/-- Five marked server tools are five breakpoints beside the hints for the system and the
message. -/
theorem marked_searches_exceed_cap :
    ∃ body, requestToAnthropicWire (searchingRequest 5
        [("cache_control", cacheControlWire ⟨none⟩)]) "m" false = .ok body ∧
      ¬ (breakpoints body ≤ 4 ∧ HintsKept (searchingRequest 5
          [("cache_control", cacheControlWire ⟨none⟩)]) body ∧
        requestToAnthropicWire (withoutHints (searchingRequest 5
          [("cache_control", cacheControlWire ⟨none⟩)])) "m" false = .ok (plain body)) := by
  refine ⟨_, rfl, fun h => absurd h.1 ?_⟩
  decide +kernel

end Breakpoints

end Switchback
