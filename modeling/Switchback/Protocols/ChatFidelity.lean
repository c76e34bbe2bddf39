import Switchback.Protocols.ChatMessages

/-!
# Chat Completions bodies through the canonical request

A chat body is parsed into the canonical request and encoded for a chat upstream: what arrives there
is the body that came in, or something of it is lost.
-/

namespace Switchback

namespace ChatFidelity

open Lib

/-! ### The same -/

section

variable (fromStr : String → Except String Json)

/-- One system message for all of them. -/
def mergedSystem (texts : List String) : List Json :=
  if texts.isEmpty then []
  else [Json.mkObj [("role", .str "system"), ("content", .str (Text.join "\n" texts))]]

def toolsOf (body : Json) : List Json := (body.getArray "tools").getD []

/-- A member that is set to something. -/
def setting (key : String) (body : Json) : Option Json :=
  (body.get key).filter fun v => !v.isNull

/-- The upstream's body says what the client's does, whose messages are system messages and
others. -/
structure Faithful (system rest : List Json) (body wire : Json) : Prop where
  messages : ∃ rest', wire.getArray "messages" = some (mergedSystem (systemTexts system) ++ rest') ∧
    List.Forall₂ (SameMessage fromStr) rest rest'
  tools : toolsOf wire = toolsOf body
  responseFormat : setting "response_format" wire = setting "response_format" body
  limit : chatOutputLimit wire = chatOutputLimit body
  passed : ∀ k, k ∉ modeledKeys → wire.get k = body.get k

/-- A function with a name, perhaps a description, and parameters, and nothing else. -/
def PlainTool (tool : Json) : Prop :=
  ∃ (name : String) (description : Option String) (parameters : Json),
    tool = Json.mkObj [("type", .str "function"), ("function", Json.mkObj
      ([("name", .str name)] ++
        (description.map fun description => ("description", Json.str description)).toList ++
        [("parameters", parameters)]))]

/-- A text, a JSON object, or a JSON schema with a name and a strictness, and nothing else. -/
def PlainFormat (format : Json) : Prop :=
  format = Json.mkObj [("type", .str "text")] ∨
  format = Json.mkObj [("type", .str "json_object")] ∨
  ∃ (name : String) (schema : Json) (strict : Bool),
    format = Json.mkObj [("type", .str "json_schema"), ("json_schema", Json.mkObj
      [("name", .str name), ("schema", schema), ("strict", .bool strict)])]

structure Fit (rest : List Json) (body : Json) : Prop where
  images : ∀ m ∈ rest, ∀ pieces, readContent (m.get "content") = some (.pieces pieces) →
    ∀ piece ∈ pieces, ValidImage piece
  messages : ∀ m ∈ rest, FitMessage fromStr m
  tools : ∀ tool ∈ toolsOf body, PlainTool tool
  format : ∀ format, setting "response_format" body = some format → PlainFormat format
  limit : ∀ n, chatOutputLimit body = some n → n < 2 ^ 32

end

/-! ### What is read -/

section

variable {fromStr : String → Except String Json} {toJsonString : Json → String}
  {newId : String → String} {body : Json} {req : AiRequest} {system rest : List Json}

/-- What a body that is accepted becomes. -/
structure ReadAs (fromStr : String → Except String Json) (body : Json) (req : AiRequest)
    (turns : List (List String × List Message)) : Prop where
  system : req.system = if (turns.flatMap Prod.fst).isEmpty then none
    else some (Text.join "\n" (turns.flatMap Prod.fst))
  messages : req.messages = turns.flatMap Prod.snd
  tools : chatTools (body.get "tools") = .ok req.tools
  responseFormat : chatResponseFormat (body.get "response_format") = .ok req.responseFormat
  limit : req.maxOutputTokens = (chatOutputLimit body).filter fun n => n < 2 ^ 32
  passthrough : req.passthrough = (body.asObject.getD []).filter fun p => p.1 ∉ modeledKeys

theorem readAs_of_ok (h : requestFromOpenAiChat fromStr newId body = .ok req)
    {messages : List Json} (hmessages : body.getArray "messages" = some messages) :
    ∃ turns, messages.mapM (chatTurn fromStr) = .ok turns ∧ ReadAs fromStr body req turns := by
  unfold requestFromOpenAiChat at h
  rw [hmessages] at h
  cases hmodel : body.getStr "model" with
  | none =>
    rw [hmodel] at h
    cases h
  | some model =>
    rw [hmodel] at h
    dsimp only at h
    obtain ⟨turns, hturns, h⟩ := bind_eq_ok_iff.mp h
    obtain ⟨tools, htools, h⟩ := bind_eq_ok_iff.mp h
    obtain ⟨format, hformat, h⟩ := bind_eq_ok_iff.mp h
    cases h
    exact ⟨turns, hturns, rfl, rfl, htools, hformat, rfl, rfl⟩

theorem systemTexts_cons (m : Json) (l : List Json) :
    systemTexts (m :: l) = systemTexts [m] ++ systemTexts l := by
  unfold systemTexts
  rw [← List.filterMap_append, List.singleton_append]

variable {turns : List (List String × List Message)}

theorem turns_system (hsystem : ∀ m ∈ system, isSystem m = true)
    (h : List.Forall₂ (fun m turn => chatTurn fromStr m = .ok turn) system turns) :
    turns.flatMap Prod.fst = systemTexts system ∧ turns.flatMap Prod.snd = [] := by
  induction h with
  | nil => exact ⟨rfl, rfl⟩
  | @cons m turn system turns hturn _ ih =>
    obtain ⟨hm, hsystem⟩ := List.forall_mem_cons.mp hsystem
    obtain ⟨htexts, hmessages⟩ := ih hsystem
    obtain rfl := chatTurn_system hm hturn
    rw [List.flatMap_cons, List.flatMap_cons, htexts, hmessages, systemTexts_cons m system]
    exact ⟨rfl, rfl⟩

theorem turns_rest (hinv : Inverse fromStr toJsonString) (hrest : ∀ m ∈ rest, isSystem m = false)
    (h : List.Forall₂ (fun m turn => chatTurn fromStr m = .ok turn) rest turns) :
    turns.flatMap Prod.fst = [] ∧
      List.Forall₂ (Carried fromStr toJsonString) rest (turns.flatMap Prod.snd) := by
  induction h with
  | nil => exact ⟨rfl, .nil⟩
  | @cons m turn rest turns hturn _ ih =>
    obtain ⟨hm, hrest⟩ := List.forall_mem_cons.mp hrest
    obtain ⟨htexts, hcarried⟩ := ih hrest
    obtain ⟨msg, rfl, hmsg⟩ := chatTurn_rest hinv hm hturn
    rw [List.flatMap_cons, List.flatMap_cons, htexts]
    exact ⟨rfl, .cons hmsg hcarried⟩

theorem messages_read (hinv : Inverse fromStr toJsonString)
    (h : requestFromOpenAiChat fromStr newId body = .ok req)
    (hmessages : body.getArray "messages" = some (system ++ rest))
    (hsystem : ∀ m ∈ system, isSystem m = true) (hrest : ∀ m ∈ rest, isSystem m = false) :
    (req.system.map openAiSystemMessage).toList = mergedSystem (systemTexts system) ∧
      List.Forall₂ (Carried fromStr toJsonString) rest req.messages := by
  obtain ⟨turns, hturns, hread⟩ := readAs_of_ok h hmessages
  rw [List.mapM_append] at hturns
  obtain ⟨turns₁, hturns₁, hturns⟩ := bind_eq_ok_iff.mp hturns
  obtain ⟨turns₂, hturns₂, hturns⟩ := bind_eq_ok_iff.mp hturns
  cases hturns
  obtain ⟨htexts₁, hmessages₁⟩ := turns_system hsystem (mapM_eq_ok_iff.mp hturns₁)
  obtain ⟨htexts₂, hcarried⟩ := turns_rest hinv hrest (mapM_eq_ok_iff.mp hturns₂)
  have htexts : (turns₁ ++ turns₂).flatMap Prod.fst = systemTexts system := by
    rw [List.flatMap_append, htexts₁, htexts₂, List.append_nil]
  constructor
  · rw [hread.system, htexts]
    unfold mergedSystem
    split
    · rfl
    · rfl
  · rw [hread.messages, List.flatMap_append, hmessages₁, List.nil_append]
    exact hcarried

/-- The canonical messages are valid when their images are, and then go out one by one. -/
theorem messages_sent {msgs : List Message}
    (h : List.Forall₂ (Carried fromStr toJsonString) rest msgs) :
    ((∀ part ∈ msgs.flatMap Message.content, part.validate = .ok ()) ↔
        ∀ m ∈ rest, ValidMessage m) ∧
      ((∀ m ∈ rest, ValidMessage m) → ∃ turns,
        msgs.mapM (openAiMessages toJsonString) = .ok turns ∧
          (List.Forall₂ (SameMessage fromStr) rest turns.flatten ↔
            ∀ m ∈ rest, FitMessage fromStr m)) := by
  induction h with
  | nil =>
    refine ⟨iff_of_true ?_ fun _ h => absurd h List.not_mem_nil, fun _ => ⟨[], rfl, ?_⟩⟩
    · exact fun _ h => absurd h List.not_mem_nil
    · exact iff_of_true .nil fun _ h => absurd h List.not_mem_nil
  | @cons m msg rest msgs hcarried _ ih =>
    obtain ⟨hvalid, hsent⟩ := ih
    constructor
    · rw [List.flatMap_cons, List.forall_mem_append, List.forall_mem_cons]
      exact and_congr hcarried.valid hvalid
    · intro hall
      obtain ⟨hm, hall⟩ := List.forall_mem_cons.mp hall
      obtain ⟨turns, hturns, hiff⟩ := hsent hall
      obtain ⟨m', hm', hsame⟩ := hcarried.sent hm
      refine ⟨[m'] :: turns, mapM_eq_ok_iff.mpr (.cons hm' (mapM_eq_ok_iff.mp hturns)), ?_⟩
      rw [List.flatten_cons, List.singleton_append, List.forall₂_cons, List.forall_mem_cons]
      exact and_congr hsame hiff

/-! ### Tools, format and limit -/

theorem plainTool_openAiTool (tool : ToolSpec) : PlainTool (openAiTool tool) :=
  ⟨tool.name, tool.description, tool.parameters, rfl⟩

theorem chatTool_plain {tool : Json} (h : PlainTool tool) :
    ∃ spec, chatTool tool = .ok [spec] ∧ openAiTool spec = tool := by
  obtain ⟨name, description, parameters, rfl⟩ := h
  generalize hfields : [("name", Json.str name)] ++
    (description.map fun description => ("description", Json.str description)).toList ++
      [("parameters", parameters)] = fields
  have hnodup : (fields.map Prod.fst).Nodup := by
    rw [← hfields]
    cases description with
    | none => simp
    | some description => simp
  have hget (k : String) : (Json.mkObj [("type", .str "function"),
      ("function", Json.mkObj fields)]).get k = OrdMap.getList k [("type", .str "function"),
        ("function", Json.mkObj fields)] := Json.get_mkObj (by simp) k
  have hname : (Json.mkObj fields).getStr "name" = some name := by
    unfold Json.getStr
    rw [Json.get_mkObj hnodup, ← hfields]
    rfl
  have hdescription : (Json.mkObj fields).getStr "description" = description := by
    unfold Json.getStr
    rw [Json.get_mkObj hnodup, ← hfields]
    cases description with
    | none => rfl
    | some description => rfl
  have hparameters : (Json.mkObj fields).get "parameters" = some parameters := by
    rw [Json.get_mkObj hnodup, ← hfields]
    cases description with
    | none => rfl
    | some description => rfl
  refine ⟨{ name := name, description := description, parameters := parameters,
            deferLoading := false }, ?_, ?_⟩
  · unfold chatTool
    have htype : (Json.mkObj [("type", .str "function"),
        ("function", Json.mkObj fields)]).getStr "type" = some "function" := by
      unfold Json.getStr
      rw [hget]
      rfl
    have hfunction : (OrdMap.getList "function" [("type", Json.str "function"),
        ("function", Json.mkObj fields)]).bind Json.asObject =
          some (OrdMap.ofList fields).entries := rfl
    have hobject : Json.obj (OrdMap.ofList fields).entries = Json.mkObj fields := rfl
    rw [if_pos htype, hget, hfunction]
    dsimp only
    rw [hobject, hname]
    show Except.ok [ToolSpec.mk _ ((Json.mkObj fields).getStr "description")
      (((Json.mkObj fields).get "parameters").getD .null) false] = _
    rw [hdescription, hparameters]
    rfl
  · rw [← hfields]
    rfl

theorem tools_iff {tools : List ToolSpec} (h : chatTools (body.get "tools") = .ok tools) :
    tools.map openAiTool = toolsOf body ↔ ∀ tool ∈ toolsOf body, PlainTool tool := by
  constructor
  · intro heq tool htool
    rw [← heq] at htool
    obtain ⟨spec, -, rfl⟩ := List.mem_map.mp htool
    exact plainTool_openAiTool spec
  · unfold toolsOf Json.getArray
    cases hget : body.get "tools" with
    | none =>
      rw [hget] at h
      cases h
      exact fun _ => rfl
    | some value =>
      rw [hget] at h
      unfold chatTools at h
      dsimp only at h
      rw [Option.bind_some]
      cases harray : value.asArray with
      | none =>
        rw [harray] at h
        cases h
      | some l =>
        rw [harray] at h
        obtain ⟨specs, hspecs, rfl⟩ := map_eq_ok_iff.mp h
        have hall := mapM_eq_ok_iff.mp hspecs
        rw [Option.getD_some]
        clear h hspecs harray hget
        intro hplain
        induction hall with
        | nil => rfl
        | @cons tool spec l specs hspec _ ih =>
          obtain ⟨htool, hrest⟩ := List.forall_mem_cons.mp hplain
          obtain ⟨spec', hspec', rfl⟩ := chatTool_plain htool
          obtain rfl := Except.ok.inj (hspec.symm.trans hspec')
          rw [List.flatten_cons, List.map_append, ih hrest]
          rfl

theorem plainFormat_openAiResponseFormat (format : ResponseFormat) :
    PlainFormat (openAiResponseFormat format) := by
  cases format with
  | text => exact Or.inl rfl
  | jsonObject => exact Or.inr (Or.inl rfl)
  | jsonSchema name schema strict => exact Or.inr (Or.inr ⟨name, schema, strict, rfl⟩)

theorem chatResponseFormat_plain {format : Json} (h : PlainFormat format) :
    ∃ parsed, chatResponseFormat (some format) = .ok (some parsed) ∧
      openAiResponseFormat parsed = format := by
  rcases h with rfl | rfl | ⟨name, schema, strict, rfl⟩
  · exact ⟨.text, rfl, rfl⟩
  · exact ⟨.jsonObject, rfl, rfl⟩
  · refine ⟨.jsonSchema name schema strict, ?_, rfl⟩
    generalize hinner : Json.mkObj [("name", .str name), ("schema", schema),
      ("strict", .bool strict)] = inner
    have hget (k : String) : (Json.mkObj [("type", .str "json_schema"),
        ("json_schema", inner)]).get k = OrdMap.getList k [("type", .str "json_schema"),
          ("json_schema", inner)] := Json.get_mkObj (by simp) k
    have hfield (k : String) : inner.get k = OrdMap.getList k [("name", .str name),
        ("schema", schema), ("strict", .bool strict)] := by
      rw [← hinner]
      exact Json.get_mkObj (by simp) k
    have hobj : ∃ fields, inner = .obj fields := ⟨_, hinner.symm⟩
    obtain ⟨fields, rfl⟩ := hobj
    have htype : (Json.mkObj [("type", .str "json_schema"),
        ("json_schema", Json.obj fields)]).getStr "type" = some "json_schema" := by
      unfold Json.getStr
      rw [hget]
      rfl
    have hname : (Json.obj fields).getStr "name" = some name := by
      unfold Json.getStr
      rw [hfield]
      rfl
    unfold chatResponseFormat
    dsimp only
    have hinner : (OrdMap.getList "json_schema" [("type", Json.str "json_schema"),
        ("json_schema", Json.obj fields)]).bind Json.asObject = some fields := rfl
    rw [htype, hget, hinner]
    dsimp only
    rw [hname]
    show Except.ok (some (ResponseFormat.jsonSchema name
      (((Json.obj fields).get "schema").getD .null) ((((Json.obj fields).get "strict").bind Json.asBool).getD false))) = _
    rw [hfield, hfield]
    rfl

theorem format_iff {format : Option ResponseFormat}
    (h : chatResponseFormat (body.get "response_format") = .ok format) :
    format.map openAiResponseFormat = setting "response_format" body ↔
      ∀ v, setting "response_format" body = some v → PlainFormat v := by
  constructor
  · intro heq v hv
    rw [← heq] at hv
    obtain ⟨format, rfl, rfl⟩ := Option.map_eq_some_iff.mp hv
    exact plainFormat_openAiResponseFormat format
  · unfold setting
    intro hplain
    cases hget : body.get "response_format" with
    | none =>
      rw [hget] at h
      cases h
      rfl
    | some v =>
      rw [hget] at h hplain
      cases hnull : v.isNull with
      | true =>
        have hv : v = .null := by
          cases v with
          | null => rfl
          | bool b => cases hnull
          | num n => cases hnull
          | str t => cases hnull
          | arr l => cases hnull
          | obj fields => cases hnull
        subst hv
        cases h
        rfl
      | false =>
        have hset : (some v).filter (fun v => !v.isNull) = some v :=
          Option.filter_some_pos (by rw [hnull]; rfl)
        obtain ⟨parsed, hparsed, hwritten⟩ := chatResponseFormat_plain (hplain v hset)
        obtain rfl := Except.ok.inj (h.symm.trans hparsed)
        rw [hset, Option.map_some, hwritten]

theorem limit_iff (limit : Option ℕ) :
    (limit.filter fun n => n < 2 ^ 32) = limit ↔ ∀ n, limit = some n → n < 2 ^ 32 := by
  cases limit with
  | none => exact iff_of_true rfl nofun
  | some n =>
    rw [Option.filter_eq_some_iff]
    constructor
    · rintro ⟨-, hn⟩ n' heq
      cases heq
      exact of_decide_eq_true hn
    · exact fun h => ⟨rfl, decide_eq_true (h n rfl)⟩

/-! ### The members of the upstream's body -/

variable {model : String} {stream : Bool} {messages : List Json} {wire : Json}

theorem getList_absent {l : List (String × Json)} {keys : List String} {k : String}
    (hkeys : (l.map Prod.fst).Sublist keys) (hk : k ∉ keys) : OrdMap.getList k l = none :=
  OrdMap.getList_eq_none fun hmem => hk (hkeys.subset hmem)

theorem getList_option {α : Type} (key : String) (f : α → Json) (o : Option α) :
    OrdMap.getList key (o.map fun a => (key, f a)).toList = o.map f := by
  cases o with
  | none => rfl
  | some a => exact if_pos rfl

theorem getList_messages :
    OrdMap.getList "messages" (openAiMembers req model stream messages) = some (.arr messages) := by
  unfold openAiMembers
  simp only [OrdMap.getList_append]
  rfl

theorem getList_limit :
    OrdMap.getList "max_tokens" (openAiMembers req model stream messages) =
      req.maxOutputTokens.map Json.ofNat := by
  unfold openAiMembers
  simp only [OrdMap.getList_append]
  rw [getList_option, getList_absent (keys_temperatureField _) (by decide),
    getList_absent (keys_if _ _ _) (by decide), getList_absent (keys_option _ _ _) (by decide),
    Option.or_none, Option.or_none, Option.or_none]
  exact Option.none_or

theorem getList_tools :
    OrdMap.getList "tools" (openAiMembers req model stream messages) =
      if req.tools.isEmpty then none else some (.arr (req.tools.map openAiTool)) := by
  unfold openAiMembers
  simp only [OrdMap.getList_append]
  rw [getList_absent (keys_option "max_tokens" _ _) (by decide),
    getList_absent (keys_temperatureField _) (by decide),
    getList_absent (keys_option "response_format" _ _) (by decide),
    Option.or_none, Option.or_none, Option.or_none]
  split
  · rfl
  · rfl

theorem getList_responseFormat :
    OrdMap.getList "response_format" (openAiMembers req model stream messages) =
      req.responseFormat.map openAiResponseFormat := by
  unfold openAiMembers
  simp only [OrdMap.getList_append]
  rw [getList_option, getList_absent (keys_option "max_tokens" _ _) (by decide),
    getList_absent (keys_temperatureField _) (by decide),
    getList_absent (keys_if _ _ _) (by decide), Option.or_none, Option.or_none, Option.or_none]
  exact Option.none_or

theorem getList_other {k : String} (hk : k ∉ modeledKeys) :
    OrdMap.getList k (openAiMembers req model stream messages) = none := by
  refine getList_absent (keys_openAiMembers _ _ _ _) fun hmem => hk ?_
  have hsub : ["model", "messages", "stream"] ++ ["max_tokens"] ++ ["temperature"] ++ ["tools"] ++
      ["response_format"] ⊆ modeledKeys := by decide
  exact hsub hmem

theorem getList_passthrough (hread : ReadAs fromStr body req turns) (k : String) :
    OrdMap.getList k req.passthrough = if k ∈ modeledKeys then none else body.get k := by
  have hbody : body.get k = OrdMap.getList k (body.asObject.getD []) := by
    cases body with
    | obj fields => rfl
    | null => rfl
    | bool b => rfl
    | num n => rfl
    | str t => rfl
    | arr l => rfl
  rw [hread.passthrough, hbody]
  by_cases hk : k ∈ modeledKeys
  · rw [if_pos hk]
    refine OrdMap.getList_eq_none fun hmem => ?_
    obtain ⟨p, hp, rfl⟩ := List.mem_map.mp hmem
    have hnot := (List.mem_filter.mp hp).2
    exact of_decide_eq_true hnot hk
  · rw [if_neg hk]
    have hfilter := OrdMap.getList_filter (fun k => decide (k ∉ modeledKeys)) k
      (body.asObject.getD [])
    rw [if_pos (decide_eq_true hk)] at hfilter
    exact hfilter

/-- The body that goes out says what the request says. -/
structure SentAs (req : AiRequest) (messages : List Json) (body wire : Json) : Prop where
  messages : wire.getArray "messages" = some messages
  tools : toolsOf wire = req.tools.map openAiTool
  responseFormat : setting "response_format" wire = req.responseFormat.map openAiResponseFormat
  limit : chatOutputLimit wire = req.maxOutputTokens
  passed : ∀ k, k ∉ modeledKeys → wire.get k = body.get k

theorem sentAs (model : String) (stream : Bool) (messages : List Json)
    (hread : ReadAs fromStr body req turns) :
    SentAs req messages body (.obj ((OrdMap.ofList (openAiMembers req model stream
      messages)).orInsertAll req.passthrough).entries) := by
  have hmodeled {k : String} (hk : k ∈ modeledKeys) :
      Json.get k (.obj ((OrdMap.ofList (openAiMembers req model stream
        messages)).orInsertAll req.passthrough).entries) =
          OrdMap.getList k (openAiMembers req model stream messages) := by
    rw [get_openAiBody, getList_passthrough hread, if_pos hk, Option.or_none]
  constructor
  · unfold Json.getArray
    rw [hmodeled (by decide), getList_messages]
    rfl
  · unfold toolsOf Json.getArray
    rw [hmodeled (by decide), getList_tools]
    split
    · rename_i hempty
      rw [List.isEmpty_iff.mp hempty]
      rfl
    · rfl
  · unfold setting
    rw [hmodeled (by decide), getList_responseFormat]
    cases req.responseFormat with
    | none => rfl
    | some format =>
      cases format with
      | text => rfl
      | jsonObject => rfl
      | jsonSchema name schema strict => rfl
  · unfold chatOutputLimit Json.getU64
    have hnewer : OrdMap.getList "max_completion_tokens"
        (openAiMembers req model stream messages) = none :=
      getList_absent (keys_openAiMembers _ _ _ _) (by decide)
    rw [hmodeled (by decide), hmodeled (by decide), hnewer, getList_limit]
    cases req.maxOutputTokens with
    | none => rfl
    | some n => rfl
  · intro k hk
    rw [get_openAiBody, getList_other hk, getList_passthrough hread, if_neg hk, Option.none_or]

/-- **When a Chat Completions body passes through faithfully.**  A body that is accepted, whose
system messages come first, goes out with the same messages, tools, response format, limit and
other parameters exactly when every image can be sent, no message says anything beside what its
role has or holds an empty text beside an image, all arguments are JSON, every tool is a plain
function and the format a plain one, and the limit fits. -/
theorem chat_faithful_iff (hinv : Inverse fromStr toJsonString)
    (h : requestFromOpenAiChat fromStr newId body = .ok req)
    (hmessages : body.getArray "messages" = some (system ++ rest))
    (hsystem : ∀ m ∈ system, isSystem m = true) (hrest : ∀ m ∈ rest, isSystem m = false)
    (upstreamModel : String) (stream : Bool) :
    (∃ wire, requestToOpenAiWire toJsonString req upstreamModel stream = .ok wire ∧
      Faithful fromStr system rest body wire) ↔ Fit fromStr rest body := by
  obtain ⟨turns, hturns, hread⟩ := readAs_of_ok h hmessages
  obtain ⟨hmerged, hcarried⟩ := messages_read hinv h hmessages hsystem hrest
  obtain ⟨hvalid, hsent⟩ := messages_sent hcarried
  have htools := tools_iff hread.tools
  have hformat := format_iff hread.responseFormat
  have hlimit := limit_iff (chatOutputLimit body)
  rw [← hread.limit] at hlimit
  have hcanonical : req.validateCanonical = .ok () ↔ ∀ m ∈ rest, ValidMessage m :=
    forM_eq_ok_iff.trans hvalid
  constructor
  · rintro ⟨wire, hwire, hfaithful⟩
    obtain ⟨hcheck, out, hout, rfl⟩ := requestToOpenAiWire_eq_ok_iff.mp hwire
    have himages := hcanonical.mp hcheck
    obtain ⟨out', hout', hsame⟩ := hsent himages
    obtain rfl := Except.ok.inj (hout.symm.trans hout')
    rw [hmerged] at hfaithful
    have hsentAs := sentAs upstreamModel stream
      (mergedSystem (systemTexts system) ++ out.flatten) hread
    obtain ⟨rest', hrest', hall⟩ := hfaithful.messages
    have hcancel := List.append_cancel_left (Option.some.inj (hsentAs.messages.symm.trans hrest'))
    rw [← hcancel] at hall
    exact ⟨himages, hsame.mp hall, htools.mp (hsentAs.tools.symm.trans hfaithful.tools),
      hformat.mp (hsentAs.responseFormat.symm.trans hfaithful.responseFormat),
      hlimit.mp (hsentAs.limit.symm.trans hfaithful.limit)⟩
  · intro hfit
    obtain ⟨out, hout, hsame⟩ := hsent hfit.images
    have hsentAs := sentAs upstreamModel stream
      ((req.system.map openAiSystemMessage).toList ++ out.flatten) hread
    refine ⟨_, requestToOpenAiWire_eq_ok_iff.mpr
      ⟨hcanonical.mpr hfit.images, out, hout, rfl⟩, ?_⟩
    constructor
    · refine ⟨out.flatten, ?_, hsame.mpr hfit.messages⟩
      rw [hsentAs.messages, hmerged]
    · exact hsentAs.tools.trans (htools.mpr hfit.tools)
    · exact hsentAs.responseFormat.trans (hformat.mpr hfit.format)
    · exact hsentAs.limit.trans (hlimit.mpr hfit.limit)
    · exact hsentAs.passed

end

/-- Reads an empty object or a string in quotation marks, which suffices for small arguments. -/
def readQuoted (text : String) : Except String Json :=
  if text = "\x7b\x7d" then .ok (.obj [])
  else match (Text.stripLit "\"" text).bind (Text.stripSuffix "\"") with
    | some t => .ok (.str t)
    | none => .error "expected value"

def printQuoted (v : Json) : String :=
  match v.asStr with
  | some t => "\"" ++ t ++ "\""
  | none => "\x7b\x7d"

theorem readQuoted_printQuoted (t : String) :
    readQuoted (printQuoted (.str t)) = .ok (.str t) := by
  have hne : "\"" ++ t ++ "\"" ≠ "\x7b\x7d" := by
    intro heq
    have hhead := congrArg (fun s => s.toList.head?) heq
    simp at hhead
  have hstrip : (Text.stripLit "\"" ("\"" ++ t ++ "\"")).bind (Text.stripSuffix "\"") =
      some t := by
    unfold Text.stripLit Text.stripSuffix
    have hfront : Text.stripPrefixList "\"".toList ("\"" ++ t ++ "\"").toList =
        some (t ++ "\"").toList :=
      Text.stripPrefixList_eq_some_iff.mpr (by simp)
    have hback : Text.stripPrefixList "\"".toList.reverse (t ++ "\"").toList.reverse =
        some t.toList.reverse :=
      Text.stripPrefixList_eq_some_iff.mpr (by simp)
    rw [hfront, Option.map_some, Option.bind_some, String.ofList_toList, hback]
    simp
  show readQuoted ("\"" ++ t ++ "\"") = _
  unfold readQuoted
  rw [if_neg hne, hstrip]

theorem inverse_quoted : Inverse readQuoted printQuoted := by
  refine ⟨fun a v h => ?_, readQuoted_printQuoted⟩
  unfold readQuoted at h
  split at h
  · cases h
    rfl
  · split at h
    · cases h
      exact readQuoted_printQuoted _
    · cases h

/-! ### A conversation -/

/-- The instructions. -/
def brief : Json := Json.mkObj [("role", .str "system"), ("content", .str "Be brief.")]

/-- A question about an image, a call and its result. -/
def lookMessages : List Json :=
  [Json.mkObj [("role", .str "user"), ("content", .arr
      [Json.mkObj [("type", .str "text"), ("text", .str "What is it?")],
        Json.mkObj [("type", .str "image_url"),
          ("image_url", Json.mkObj [("url", .str "https://a/b.png")])]])],
    Json.mkObj [("role", .str "assistant"), ("content", .null), ("tool_calls", .arr
      [Json.mkObj [("id", .str "c1"), ("type", .str "function"), ("function", Json.mkObj
        [("name", .str "look"), ("arguments", .str "\x7b\x7d")])]])],
    Json.mkObj [("role", .str "tool"), ("tool_call_id", .str "c1"), ("content", .str "A cat.")]]

def lookTool : Json :=
  Json.mkObj [("type", .str "function"), ("function", Json.mkObj
    [("name", .str "look"), ("parameters", Json.mkObj [("type", .str "object")])])]

def lookBody : Json :=
  Json.mkObj [("model", .str "gpt"), ("max_tokens", Json.ofNat 256), ("seed", Json.ofNat 7),
    ("tools", .arr [lookTool]),
    ("response_format", Json.mkObj [("type", .str "json_object")]),
    ("messages", .arr ([brief] ++ lookMessages))]

theorem fit_lookMessages : ∀ m ∈ lookMessages, ValidMessage m ∧ FitMessage readQuoted m := by
  unfold lookMessages
  refine List.forall_mem_cons.mpr ⟨⟨?_, rfl, ?_, nofun⟩, List.forall_mem_cons.mpr
    ⟨⟨validMessage_text (t := "") rfl, rfl, ?_, ?_⟩, List.forall_mem_singleton.mpr
      ⟨validMessage_text (t := "A cat.") rfl, rfl, ?_, nofun⟩⟩⟩
  · rintro pieces hpieces
    cases hpieces
    exact List.forall_mem_cons.mpr ⟨trivial, List.forall_mem_singleton.mpr rfl⟩
  · rintro pieces hpieces
    cases hpieces
    decide
  · rintro pieces hpieces
    cases hpieces
  · refine List.forall_mem_singleton.mpr fun a ha => ?_
    cases ha
    exact ⟨_, rfl⟩
  · rintro pieces hpieces
    cases hpieces

theorem fit_lookBody : Fit readQuoted lookMessages lookBody := by
  refine ⟨fun m hm => (fit_lookMessages m hm).1, fun m hm => (fit_lookMessages m hm).2, ?_, ?_, ?_⟩
  · exact List.forall_mem_singleton.mpr ⟨"look", none, _, rfl⟩
  · rintro format hformat
    cases hformat
    exact Or.inr (Or.inl rfl)
  · rintro n hn
    cases hn
    decide

theorem chat_faithful_look :
    ∃ req, requestFromOpenAiChat readQuoted id lookBody = .ok req ∧
      ∃ wire, requestToOpenAiWire printQuoted req "gpt" false = .ok wire ∧
        Faithful readQuoted [brief] lookMessages lookBody wire :=
  ⟨_, rfl, (chat_faithful_iff inverse_quoted
    (show requestFromOpenAiChat readQuoted id lookBody = .ok _ from rfl)
    (show lookBody.getArray "messages" = some ([brief] ++ lookMessages) from rfl)
    (by decide) (by decide) "gpt" false).mpr fit_lookBody⟩

/-- A call whose arguments are no JSON. -/
def looseMessage : Json :=
  Json.mkObj [("role", .str "assistant"), ("tool_calls", .arr
    [Json.mkObj [("id", .str "c1"), ("type", .str "function"), ("function", Json.mkObj
      [("name", .str "look"), ("arguments", .str "abc")])]])]

def looseBody : Json :=
  Json.mkObj [("model", .str "gpt"), ("messages", .arr [looseMessage])]

theorem loose_arguments_quoted :
    Inverse readQuoted printQuoted ∧
      ∃ req wire, requestFromOpenAiChat readQuoted id looseBody = .ok req ∧
        requestToOpenAiWire printQuoted req "gpt" false = .ok wire ∧
        ¬ Faithful readQuoted [] [looseMessage] looseBody wire := by
  refine ⟨inverse_quoted, _, _, rfl, rfl, fun hfaithful => ?_⟩
  obtain ⟨rest', hrest', hall⟩ := hfaithful.messages
  cases hrest'
  cases hall with
  | cons hsame _ =>
    cases hsame.calls with
    | cons hcall _ =>
      obtain ⟨a, a', ha, ha', harguments⟩ := hcall.arguments
      cases ha
      cases ha'
      exact absurd (show "\"abc\"" = "abc" from harguments) (by decide)

end ChatFidelity

end Switchback
