import Switchback.Lib.Segments
import Switchback.Protocols.AnthropicWire
import Switchback.Protocols.ResponsesWire

/-!
# System instructions in the four request bodies

A canonical request has a system prompt, system turns, or both.  Every encoder puts them in a place
of its own.
-/

namespace Switchback

namespace Instructions

open Lib Segments

/-- The prompt, and the system turns that say anything. -/
def systemSources (req : AiRequest) : List String :=
  req.system.toList ++
    ((req.messages.filter fun m => m.role = .system).map Message.text).filter fun text => text ≠ ""

inductive EgressEncoder where
  | openAi
  | anthropic
  | gemini
  | responses

namespace EgressEncoder

def encode (toJsonString : Json → String) (downlevel : Json → Json × List SchemaWarning)
    (req : AiRequest) (upstreamModel : String) (stream : Bool) : EgressEncoder → Except String Json
  | openAi => requestToOpenAiWire toJsonString req upstreamModel stream
  | anthropic => requestToAnthropicWire req upstreamModel stream
  | gemini => requestToGeminiWire downlevel req
  | responses => requestToOpenAiResponsesWire toJsonString req upstreamModel stream

def isSystemMessage (message : Json) : Bool := message.getStr "role" = some "system"

/-- The texts of a list of blocks. -/
def blockTexts (blocks : List Json) : String :=
  Text.join "\n" (blocks.filterMap (Json.getStr "text"))

/-- What a body says in the system's name. -/
def systemText (body : Json) : EgressEncoder → String
  | openAi =>
      Text.join "\n" ((((body.getArray "messages").getD []).filter isSystemMessage).filterMap
        (Json.getStr "content"))
  | anthropic =>
      match body.get "system" with
      | some (.str text) => text
      | some (.arr blocks) => blockTexts blocks
      | _ => ""
  | gemini => blockTexts (((body.get "systemInstruction").bind (Json.getArray "parts")).getD [])
  | responses => (body.getStr "instructions").getD ""

end EgressEncoder

/-- The instructions that are not empty. -/
def spoken (req : AiRequest) : List String := (systemSources req).filter fun text => text ≠ ""

theorem spoken_eq (req : AiRequest) :
    spoken req = (req.system.filter fun system => system ≠ "").toList ++
      ((req.messages.filter fun m => m.role = .system).map Message.text).filter
        fun text => text ≠ "" := by
  unfold spoken systemSources
  rw [List.filter_append, List.filter_filter]
  congr 1
  · cases req.system with
    | none => rfl
    | some system =>
      by_cases h : system = ""
      · rw [Option.filter_some, if_neg (by simp [h])]
        simp [h]
      · rw [Option.filter_some, if_pos (by simp [h])]
        simp [h]
  · exact List.filter_congr fun text _ => Bool.and_self _

theorem carries_filter_iff {sources : List String} {l : List Char} :
    Carries ((sources.filter fun text => text ≠ "").map String.toList) l ↔
      Carries (sources.map String.toList) l := by
  induction sources generalizing l with
  | nil => exact Iff.rfl
  | cons s sources ih =>
    by_cases hs : s = ""
    · subst hs
      rw [List.filter_cons_of_neg (by simp), ih]
      constructor
      · exact fun h => ⟨[], l, rfl, h⟩
      · rintro ⟨front, back, rfl, h⟩
        exact h.append_left _
    · rw [List.filter_cons_of_pos (by simp [hs])]
      constructor
      · rintro ⟨front, back, hl, h⟩
        exact ⟨front, back, hl, ih.mp h⟩
      · rintro ⟨front, back, hl, h⟩
        exact ⟨front, back, hl, ih.mpr h⟩

/-- The system turns that say anything. -/
theorem filter_systemTurns (messages : List Message) :
    ((messages.filter fun m => m.role = .system).map Message.text).filter (fun text => text ≠ "") =
      messages.flatMap fun m => if m.role = .system ∧ m.text ≠ "" then [m.text] else [] := by
  induction messages with
  | nil => rfl
  | cons m messages ih =>
    rw [List.flatMap_cons, ← ih]
    by_cases hrole : m.role = .system
    · rw [List.filter_cons_of_pos (by simp [hrole]), List.map_cons]
      by_cases htext : m.text = ""
      · rw [if_neg (by simp [htext]), List.filter_cons_of_neg (by simp [htext]), List.nil_append]
      · rw [if_pos ⟨hrole, htext⟩, List.filter_cons_of_pos (by simp [htext]),
          List.singleton_append]
    · rw [List.filter_cons_of_neg (by simp [hrole]), if_neg (by simp [hrole]), List.nil_append]

/-! ### Chat Completions -/

section OpenAi

open EgressEncoder

variable {toJsonString : Json → String} {req : AiRequest} {m : Message}

/-- What the messages of a body say in the system's name. -/
def systemContents (messages : List Json) : List String :=
  (messages.filter isSystemMessage).filterMap (Json.getStr "content")

theorem not_isSystemMessage {fields : List (String × Json)} {role : String}
    (hnodup : (("role" :: fields.map Prod.fst)).Nodup) (hrole : role ≠ "system") :
    isSystemMessage (Json.mkObj (("role", .str role) :: fields)) = false := by
  unfold isSystemMessage Json.getStr
  rw [Json.get_mkObj (by simpa using hnodup)]
  exact decide_eq_false fun h => hrole (Option.some.inj h)

theorem systemContents_of_not {messages : List Json}
    (h : ∀ message ∈ messages, isSystemMessage message = false) : systemContents messages = [] := by
  unfold systemContents
  rw [List.filter_eq_nil_iff.mpr fun message hmem => by simp [h message hmem]]
  rfl

theorem systemContents_singleton (text : String) :
    systemContents [Json.mkObj [("role", .str "system"), ("content", .str text)]] = [text] := by
  have hrole : isSystemMessage (Json.mkObj [("role", .str "system"), ("content", .str text)]) =
      true := by
    unfold isSystemMessage Json.getStr
    rw [Json.get_mkObj (by simp)]
    rfl
  unfold systemContents
  rw [List.filter_cons_of_pos hrole, List.filter_nil, List.filterMap_cons_some, List.filterMap_nil]
  unfold Json.getStr
  rw [Json.get_mkObj (by simp)]
  rfl

theorem systemContents_turn {ms : List Json} (h : openAiMessages toJsonString m = .ok ms) :
    systemContents ms = if m.role = .system then [m.text] else [] := by
  unfold openAiMessages at h
  cases hrole : m.role with
  | system =>
    rw [hrole] at h
    obtain ⟨_, hreject, h⟩ := bind_eq_ok_iff.mp h
    obtain ⟨content, hcontent, h⟩ := bind_eq_ok_iff.mp h
    cases h
    -- without an image the content is the text
    have himage : m.content.any ContentPart.isImage = false := by
      by_contra hany
      unfold rejectImageParts at hreject
      rw [if_pos (by simpa using hany)] at hreject
      cases hreject
    rw [openAiMessageContent, himage, if_neg Bool.false_ne_true] at hcontent
    cases hcontent
    exact systemContents_singleton _
  | user =>
    rw [hrole] at h
    obtain ⟨content, -, h⟩ := bind_eq_ok_iff.mp h
    cases h
    rw [if_neg (by decide)]
    refine systemContents_of_not (List.forall_mem_singleton.mpr ?_)
    exact not_isSystemMessage (by simp) (by decide)
  | assistant =>
    rw [hrole] at h
    obtain ⟨-, -, h⟩ := bind_eq_ok_iff.mp h
    cases h
    rw [if_neg (by decide)]
    refine systemContents_of_not (List.forall_mem_singleton.mpr ?_)
    unfold openAiAssistantMessage
    dsimp only
    split
    · exact not_isSystemMessage (by simp) (by decide)
    · exact not_isSystemMessage (by simp) (by decide)
  | tool =>
    rw [hrole] at h
    obtain ⟨messages, hmessages, rfl⟩ := map_eq_ok_iff.mp h
    rw [if_neg (by decide)]
    refine systemContents_of_not fun message hmem => ?_
    obtain ⟨part, hpart, hmem⟩ := List.mem_flatten.mp hmem
    obtain ⟨content, -, hcontent⟩ := exists_of_mem_mapM hmessages hpart
    cases content with
    | toolResult toolUseId content contentParts isError =>
      cases hcontent
      rw [List.mem_singleton.mp hmem]
      exact not_isSystemMessage (by simp) (by decide)
    | text text =>
      cases hcontent
      rw [List.mem_singleton.mp hmem]
      exact not_isSystemMessage (by simp) (by decide)
    | image source detail => cases hcontent
    | toolUse id name args => cases hcontent; exact absurd hmem List.not_mem_nil
    | reasoning text signature => cases hcontent; exact absurd hmem List.not_mem_nil
    | citation url title snippet => cases hcontent; exact absurd hmem List.not_mem_nil
    | serverToolUse id name args => cases hcontent; exact absurd hmem List.not_mem_nil
    | serverToolResult id name content => cases hcontent; exact absurd hmem List.not_mem_nil

theorem systemContents_append (messages messages' : List Json) :
    systemContents (messages ++ messages') =
      systemContents messages ++ systemContents messages' := by
  unfold systemContents
  rw [List.filter_append, List.filterMap_append]

theorem systemContents_flatten (turns : List (List Json)) :
    systemContents turns.flatten = turns.flatMap systemContents := by
  induction turns with
  | nil => rfl
  | cons turn turns ih => rw [List.flatten_cons, systemContents_append, ih, List.flatMap_cons]

theorem systemText_openAi {upstreamModel : String} {stream : Bool} {body : Json}
    (h : requestToOpenAiWire toJsonString req upstreamModel stream = .ok body) :
    systemText body openAi = Text.join "\n" (req.system.toList ++
      (req.messages.filter fun m => m.role = .system).map Message.text) := by
  obtain ⟨-, turns, hturns, rfl⟩ := requestToOpenAiWire_eq_ok_iff.mp h
  unfold systemText Json.getArray
  rw [get_openAiBody]
  show Text.join "\n" (systemContents ((req.system.map openAiSystemMessage).toList ++
    turns.flatten)) = _
  rw [systemContents_append, systemContents_flatten,
    flatMap_of_mapM (fun m ms => systemContents_turn) hturns]
  congr 1
  congr 1
  · cases req.system with
    | none => rfl
    | some system => exact systemContents_singleton system
  · generalize req.messages = messages
    induction messages with
    | nil => rfl
    | cons m messages ih =>
      rw [List.flatMap_cons, ih]
      by_cases hrole : m.role = .system
      · rw [if_pos hrole, List.filter_cons_of_pos (by simp [hrole])]
        rfl
      · rw [if_neg hrole, List.filter_cons_of_neg (by simp [hrole])]
        rfl

end OpenAi

/-! ### Messages and generateContent -/

section Folded

open EgressEncoder

variable {req : AiRequest}

theorem systemChunks_turn {st st' : AnthropicTurns} {m : Message}
    (h : anthropicTurn st m = .ok st') :
    st'.systemChunks = st.systemChunks ++
      if m.role = .system ∧ m.text ≠ "" then [m.text] else [] := by
  have hpush (role : String) (blocks : List Json) :
      (st.push role blocks m.cacheHint).systemChunks = st.systemChunks := by
    unfold AnthropicTurns.push
    split
    · rfl
    · rfl
  unfold anthropicTurn at h
  cases hrole : m.role with
  | system =>
    rw [hrole] at h
    obtain ⟨-, -, h⟩ := bind_eq_ok_iff.mp h
    cases h
    by_cases htext : m.text = ""
    · rw [if_pos htext, if_neg (by simp [htext]), List.append_nil]
    · rw [if_neg htext, if_pos ⟨rfl, htext⟩]
  | assistant =>
    rw [hrole] at h
    obtain ⟨blocks, -, h⟩ := bind_eq_ok_iff.mp h
    cases h
    rw [hpush, if_neg (by simp), List.append_nil]
  | user =>
    rw [hrole] at h
    obtain ⟨blocks, -, h⟩ := bind_eq_ok_iff.mp h
    cases h
    rw [hpush, if_neg (by simp), List.append_nil]
  | tool =>
    rw [hrole] at h
    obtain ⟨blocks, -, h⟩ := bind_eq_ok_iff.mp h
    cases h
    rw [hpush, if_neg (by simp), List.append_nil]

theorem systemChunks_turns {messages : List Message} {st st' : AnthropicTurns}
    (h : messages.foldlM anthropicTurn st = .ok st') :
    st'.systemChunks = st.systemChunks ++
      messages.flatMap fun m => if m.role = .system ∧ m.text ≠ "" then [m.text] else [] := by
  induction messages generalizing st with
  | nil =>
    cases h
    exact (List.append_nil _).symm
  | cons m messages ih =>
    rw [List.foldlM_cons] at h
    obtain ⟨st₁, hturn, h⟩ := bind_eq_ok_iff.mp h
    rw [ih h, systemChunks_turn hturn, List.append_assoc, List.flatMap_cons]

theorem blockTexts_singleton {block : Json} {text : String}
    (h : block.getStr "text" = some text) : blockTexts [block] = text := by
  unfold blockTexts
  rw [List.filterMap_cons_some h]
  rfl

theorem systemText_anthropic {upstreamModel : String} {stream : Bool} {body : Json}
    (h : requestToAnthropicWire req upstreamModel stream = .ok body) (hne : spoken req ≠ []) :
    systemText body anthropic = Text.join "\n" (spoken req) := by
  obtain ⟨-, turns, hturns, serverTools, -, rfl⟩ := requestToAnthropicWire_eq_ok_iff.mp h
  have hchunks : turns.systemChunks = spoken req := by
    rw [systemChunks_turns hturns, spoken_eq, filter_systemTurns]
  unfold systemText
  rw [get_anthropicBody]
  unfold anthropicMembers
  rw [hchunks, if_neg (by simpa using hne)]
  unfold anthropicSystem
  cases req.systemCacheHint with
  | none => rfl
  | some hint =>
    refine blockTexts_singleton ?_
    unfold Json.getStr
    rw [Json.get_mkObj (by simp)]
    rfl

theorem systemText_geminiTurn {names : OrdMap String String} {m : Message}
    {turn : List String × List Json} (h : geminiTurn names m = .ok turn) :
    turn.1 = if m.role = .system ∧ m.text ≠ "" then [m.text] else [] := by
  unfold geminiTurn at h
  cases hrole : m.role with
  | system =>
    rw [hrole] at h
    obtain ⟨-, -, h⟩ := bind_eq_ok_iff.mp h
    cases h
    by_cases htext : m.text = ""
    · rw [if_pos htext, if_neg (by simp [htext])]
    · rw [if_neg htext, if_pos ⟨rfl, htext⟩]
  | assistant =>
    rw [hrole] at h
    obtain ⟨-, -, h⟩ := bind_eq_ok_iff.mp h
    cases h
    rw [if_neg (by simp)]
  | user =>
    rw [hrole] at h
    obtain ⟨parts, -, h⟩ := bind_eq_ok_iff.mp h
    cases h
    rw [if_neg (by simp)]
  | tool =>
    rw [hrole] at h
    obtain ⟨-, -, h⟩ := bind_eq_ok_iff.mp h
    cases h
    rw [if_neg (by simp)]

theorem systemText_gemini {downlevel : Json → Json × List SchemaWarning} {body : Json}
    (h : requestToGeminiWire downlevel req = .ok body) (hne : spoken req ≠ []) :
    systemText body gemini = Text.join "\n" (spoken req) := by
  simp only [requestToGeminiWire, map_eq_ok_iff, requestToGeminiWireWithWarnings,
    bind_eq_ok_iff] at h
  obtain ⟨_, ⟨⟨⟩, -, turns, hturns, hbody⟩, rfl⟩ := h
  cases hbody
  have hchunks : (req.system.filter fun system => system ≠ "").toList ++ turns.flatMap Prod.fst =
      spoken req := by
    rw [flatMap_of_mapM (fun m turn => systemText_geminiTurn) hturns, spoken_eq,
      filter_systemTurns]
  have hget : (Json.mkObj (("contents", Json.arr (turns.flatMap Prod.snd)) ::
      (geminiSettings downlevel req (spoken req)).1)).get "systemInstruction" =
        some (Json.mkObj [("parts", .arr [GeminiPart.text (Text.join "\n" (spoken req))])]) := by
    rw [Json.get_mkObj (nodup_settings _ _ _ _)]
    unfold geminiSettings
    rw [if_neg (by simpa using hne)]
    rfl
  have hparts : (Json.mkObj [("parts", .arr [GeminiPart.text (Text.join "\n" (spoken req))])]).getArray
      "parts" = some [GeminiPart.text (Text.join "\n" (spoken req))] := by
    unfold Json.getArray
    rw [Json.get_mkObj (by simp)]
    rfl
  unfold systemText
  dsimp only
  rw [hchunks, hget, Option.bind_some, hparts, Option.getD_some]
  refine blockTexts_singleton ?_
  unfold GeminiPart.text Json.getStr
  rw [Json.get_mkObj (by simp)]
  rfl

end Folded

section Responses

open EgressEncoder

variable {toJsonString : Json → String} {req : AiRequest}

theorem instructions_turn {m : Message} {turn : Option String × List Json}
    (h : responsesTurn toJsonString m = .ok turn) :
    turn.1.toList = if m.role = .system ∧ m.text ≠ "" then [m.text] else [] := by
  unfold responsesTurn at h
  cases hrole : m.role with
  | system =>
    rw [hrole] at h
    obtain ⟨-, -, h⟩ := bind_eq_ok_iff.mp h
    cases h
    by_cases htext : m.text = ""
    · rw [if_pos htext, if_neg (by simp [htext])]
      rfl
    · rw [if_neg htext, if_pos ⟨rfl, htext⟩]
      rfl
  | assistant =>
    rw [hrole] at h
    obtain ⟨content, -, h⟩ := bind_eq_ok_iff.mp h
    cases h
    exact (if_neg (by simp)).symm
  | user =>
    rw [hrole] at h
    obtain ⟨content, -, h⟩ := bind_eq_ok_iff.mp h
    cases h
    exact (if_neg (by simp)).symm
  | tool =>
    rw [hrole] at h
    obtain ⟨items, -, h⟩ := bind_eq_ok_iff.mp h
    cases h
    exact (if_neg (by simp)).symm

theorem keys_responsesTools {tools : List (String × Json)} (h : responsesTools req = .ok tools) :
    (tools.map Prod.fst).Sublist ["tools"] := by
  unfold responsesTools at h
  split at h
  · cases h
    exact List.nil_sublist _
  · obtain ⟨serverTools, -, h⟩ := bind_eq_ok_iff.mp h
    cases h
    exact List.Sublist.refl _

theorem systemText_responses {model : String} {stream : Bool} {body : Json}
    (h : requestToOpenAiResponsesWire toJsonString req model stream = .ok body)
    {others : List String} {last : String} (hspoken : spoken req = others ++ [last]) :
    systemText body responses = last := by
  obtain ⟨-, turns, hturns, tools, htools, rfl⟩ := requestToOpenAiResponsesWire_eq_ok_iff.mp h
  have hinstructions : (req.system.filter fun system => system ≠ "").toList ++
      turns.filterMap Prod.fst = spoken req := by
    have hflat : turns.filterMap Prod.fst = turns.flatMap fun turn => turn.1.toList :=
      List.filterMap_eq_flatMap_toList _ _
    rw [hflat, flatMap_of_mapM (fun m turn => instructions_turn) hturns, spoken_eq,
      filter_systemTurns]
  have habsent {l : List (String × Json)} {keys : List String}
      (hkeys : (l.map Prod.fst).Sublist keys) (hnot : "instructions" ∉ keys) :
      OrdMap.getList "instructions" l.reverse = none := by
    refine OrdMap.getList_eq_none fun hmem => hnot (hkeys.subset ?_)
    rwa [List.map_reverse, List.mem_reverse] at hmem
  have hget : OrdMap.getList "instructions"
      (responsesMembers req model stream turns tools).reverse = some (.str last) := by
    unfold responsesMembers
    dsimp only
    rw [hinstructions, hspoken, List.reverse_append, List.reverse_append, List.reverse_append,
      List.reverse_append, OrdMap.getList_append, OrdMap.getList_append, OrdMap.getList_append,
      OrdMap.getList_append, habsent (keys_option _ _ _) (by decide),
      habsent (keys_option _ _ _) (by decide), habsent (keys_responsesTools htools) (by decide),
      List.reverse_append, List.map_append, List.reverse_append]
    rfl
  unfold systemText Json.getStr
  show ((((OrdMap.ofList _).orInsertAll _).get "instructions").bind Json.asStr).getD "" = last
  rw [OrdMap.get_orInsertAll, OrdMap.get_ofList_reverse, hget]
  rfl

end Responses

open EgressEncoder in
/-- **When the system instructions survive.**  The system text of every body contains the prompt and
every system turn that says anything, in order, except that the instructions of a Responses body
contain them exactly when there is at most one that is not empty. -/
theorem instructions_survive_iff (toJsonString : Json → String)
    (downlevel : Json → Json × List SchemaWarning) (encoder : EgressEncoder) (req : AiRequest)
    (upstreamModel : String) (stream : Bool) {body : Json}
    (h : encoder.encode toJsonString downlevel req upstreamModel stream = .ok body) :
    Carries ((systemSources req).map String.toList) (encoder.systemText body).toList ↔
      (encoder = .responses → (spoken req).length ≤ 1) := by
  have hnone (hempty : spoken req = []) :
      Carries ((systemSources req).map String.toList) (encoder.systemText body).toList := by
    refine carries_filter_iff.mp ?_
    show Carries ((spoken req).map String.toList) _
    rw [hempty]
    trivial
  -- a text that joins what is spoken contains all of it
  have hjoined (htext : spoken req ≠ [] →
      encoder.systemText body = Text.join "\n" (spoken req)) :
      Carries ((systemSources req).map String.toList) (encoder.systemText body).toList := by
    by_cases hempty : spoken req = []
    · exact hnone hempty
    · rw [htext hempty]
      exact carries_filter_iff.mp (carries_join "\n" (List.Sublist.refl _))
  cases encoder with
  | openAi =>
    refine iff_of_true ?_ nofun
    rw [systemText_openAi h]
    refine carries_join "\n" ((List.Sublist.refl _).append ?_)
    exact List.filter_sublist
  | anthropic => exact iff_of_true (hjoined (systemText_anthropic h)) nofun
  | gemini => exact iff_of_true (hjoined (systemText_gemini h)) nofun
  | responses =>
    refine Iff.trans ?_ (forall_prop_of_true rfl).symm
    rcases List.eq_nil_or_concat (spoken req) with hempty | ⟨others, last, hspoken⟩
    · exact iff_of_true (hnone hempty) (by rw [hempty]; exact Nat.zero_le _)
    · rw [List.concat_eq_append] at hspoken
      rw [systemText_responses h hspoken, ← carries_filter_iff]
      show Carries ((spoken req).map String.toList) _ ↔ _
      have hne : ∀ s ∈ others.map String.toList, s ≠ [] := by
        intro s hs
        obtain ⟨text, htext, rfl⟩ := List.mem_map.mp hs
        have hmem : text ∈ spoken req := hspoken ▸ List.mem_append_left _ htext
        have htext : text ≠ "" := by simpa using (List.mem_filter.mp hmem).2
        exact fun hnil => htext (String.toList_eq_nil_iff.mp hnil)
      rw [hspoken, List.map_append]
      constructor
      · intro hcarries
        have hothers : others = [] := List.map_eq_nil_iff.mp (hcarries.eq_singleton_of_last hne)
        rw [hothers]
        exact le_rfl
      · intro hlength
        have hothers : others = [] := by
          rw [List.length_append] at hlength
          exact List.length_eq_zero_iff.mp (Nat.le_zero.mp (Nat.le_of_succ_le_succ hlength))
        rw [hothers]
        exact ⟨[], [], (List.append_nil _).symm, trivial⟩

/-- A prompt and a system turn. -/
def politeRequest : AiRequest where
  id := "req"
  model := "m"
  system := some "Be brief."
  messages := [{ role := .system, content := [.text "Be kind."] }]

/-- A Messages body keeps both. -/
theorem instructions_survive_messages :
    Carries ((systemSources politeRequest).map String.toList)
      (EgressEncoder.systemText (.obj [("max_tokens", Json.ofNat 4096), ("messages", .arr []),
        ("model", .str "m"), ("stream", .bool false), ("system", .str "Be brief.\nBe kind.")])
          .anthropic).toList :=
  (instructions_survive_iff (fun _ => "") (fun schema => (schema, [])) .anthropic politeRequest "m"
    false rfl).mpr nofun

/-- A Responses body has lost the prompt. -/
theorem responses_drop_prompt :
    ∃ body, EgressEncoder.encode (fun _ => "") (fun schema => (schema, [])) politeRequest "m" false
        .responses = .ok body ∧
      ¬ Carries ((systemSources politeRequest).map String.toList)
        (EgressEncoder.systemText body .responses).toList := by
  refine ⟨.obj [("input", .arr []), ("instructions", .str "Be kind."), ("model", .str "m"),
    ("stream", .bool false)], rfl, fun hcarries => ?_⟩
  exact absurd hcarries.sum_length_le (by decide)

end Instructions

end Switchback
