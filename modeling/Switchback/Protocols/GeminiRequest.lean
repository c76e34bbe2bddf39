import Switchback.Lib.Fallible
import Switchback.Protocols.Gemini
import Switchback.Protocols.OpenAi
import Switchback.Runtime.Collect

/-!
# Gemini requests

The canonical request as a `generateContent` body.  Tool results are sent back under the name of
the function, which is looked up by the identifier of the call in one map over the whole
conversation.
-/

namespace Switchback

open Lib

/-! ### Parts -/

namespace GeminiPart

def text (t : String) : Json := Json.mkObj [("text", .str t)]

def inlineData (mimeType data : String) : Json :=
  Json.mkObj [("inlineData", Json.mkObj [("mimeType", .str mimeType), ("data", .str data)])]

def fileData (fileUri : String) : Json :=
  Json.mkObj [("fileData", Json.mkObj [("mimeType", .str "image/png"), ("fileUri", .str fileUri)])]

def functionCall (name : String) (args : Json) : Json :=
  Json.mkObj [("functionCall", Json.mkObj [("name", .str name), ("args", args)])]

def functionResponse (name result : String) : Json :=
  Json.mkObj [("functionResponse", Json.mkObj
    [("name", .str name), ("response", Json.mkObj [("result", .str result)])])]

end GeminiPart

/-- A file of another provider. -/
def foreignOwner (provider : Option String) : Bool :=
  provider.any fun owner => owner ≠ "gemini" && owner ≠ "vertex"

def imageToGeminiPart (source : ImageSource) : Except String Json := do
  source.validate
  match source with
  | .inlineBase64 mediaType data => .ok (GeminiPart.inlineData mediaType data)
  | .remoteUrl url =>
      match ContentPart.splitBase64DataUrl url with
      | some (mediaType, data) => .ok (GeminiPart.inlineData mediaType data)
      | none => .ok (GeminiPart.fileData url)
  | .providerFileRef provider id =>
      if foreignOwner provider then
        .error ("Gemini cannot encode provider file ref owned by `" ++ provider.getD "" ++ "`")
      else .ok (GeminiPart.fileData id)

def userPart : ContentPart → Except String (List Json)
  | .text t => .ok (if t = "" then [] else [GeminiPart.text t])
  | .image source _ => (imageToGeminiPart source).map fun part => [part]
  | _ => .ok []

def userParts (message : Message) : Except String (List Json) :=
  (message.content.mapM userPart).map List.flatten

def assistantPart : ContentPart → List Json
  | .text t => if t = "" then [] else [GeminiPart.text t]
  | .toolUse _ name args => [GeminiPart.functionCall name args]
  | _ => []

/-- A tool result under the name of its call, or under its identifier. -/
def toolPart (toolNames : OrdMap String String) : ContentPart → List Json
  | .toolResult toolUseId content _ _ =>
      [GeminiPart.functionResponse ((toolNames.get toolUseId).getD toolUseId) content]
  | _ => []

/-! ### The conversation -/

/-- The names of the calls by their identifiers; a later call overwrites an earlier one. -/
def toolNames (parts : List ContentPart) : OrdMap String String :=
  parts.foldl (fun names part =>
    match part with
    | .toolUse id name _ => names.insert id name
    | _ => names) OrdMap.empty

/-- A turn without parts is left out. -/
def contentOf (role : String) (parts : List Json) : List Json :=
  if parts.isEmpty then [] else [Json.mkObj [("role", .str role), ("parts", .arr parts)]]

/-- What a message adds to the system instruction and to the contents. -/
def geminiTurn (names : OrdMap String String) (message : Message) :
    Except String (List String × List Json) :=
  match message.role with
  | .system => do
      rejectImageParts message.content "Gemini system messages"
      return (if message.text = "" then [] else [message.text], [])
  | .user => do
      let parts ← userParts message
      return ([], contentOf "user" parts)
  | .assistant => do
      rejectImageParts message.content "Gemini assistant messages"
      return ([], contentOf "model" (message.content.flatMap assistantPart))
  | .tool => do
      rejectImageParts message.content "Gemini tool messages"
      return ([], contentOf "user" (message.content.flatMap (toolPart names)))

inductive SchemaLossiness where
  | metadata
  | low
  | medium
  | high

structure SchemaWarning where
  path : String
  keyword : String
  lossiness : SchemaLossiness
  message : String

def SchemaWarning.prependPath (head : String) (w : SchemaWarning) : SchemaWarning :=
  if head = "" then w else { w with path := if w.path = "" then head else head ++ w.path }

section

variable (downlevel : Json → Json × List SchemaWarning)

def downlevelGeminiSchema (schema : Json) (head : String) : Json × List SchemaWarning :=
  ((downlevel schema).1, (downlevel schema).2.map (SchemaWarning.prependPath head))

/-- The declaration of a tool, and the warnings for its schema. -/
def functionDeclaration (tool : ToolSpec) : Json × List SchemaWarning :=
  let parameters :=
    if tool.parameters.isNull then none
    else some (downlevelGeminiSchema downlevel tool.parameters s!"/tools/{tool.name}/parameters")
  (Json.mkObj
    ([("name", .str tool.name)] ++
      (tool.description.map fun description => ("description", Json.str description)).toList ++
      (parameters.map fun result => ("parameters", result.1)).toList),
    parameters.elim [] Prod.snd)

def responseFormatFields : Option ResponseFormat → List (String × Json) × List SchemaWarning
  | some .jsonObject => ([("responseMimeType", .str "application/json")], [])
  | some (.jsonSchema _ schema _) =>
      let (schema, warnings) := downlevelGeminiSchema downlevel schema "/response_format/schema"
      ([("responseMimeType", .str "application/json"), ("responseSchema", schema)], warnings)
  | some .text | none => ([], [])

/-- A temperature that is not a number is left out. -/
def temperatureField (temperature : Option F32) : List (String × Json) :=
  ((temperature.map fun t => (Fp.convert t : F64)).filter Fp.isFinite).toList.map fun t =>
    ("temperature", .num (.float t))

/-- The members of the body beside the contents. -/
def geminiSettings (req : AiRequest) (systemChunks : List String) :
    List (String × Json) × List SchemaWarning :=
  let system : List (String × Json) :=
    if systemChunks.isEmpty then []
    else [("systemInstruction", Json.mkObj
      [("parts", .arr [GeminiPart.text (Text.join "\n" systemChunks)])])]
  let declarations := req.tools.map (functionDeclaration downlevel)
  let tools : List (String × Json) :=
    if req.tools.isEmpty then []
    else [("tools", .arr
      [Json.mkObj [("functionDeclarations", .arr (declarations.map Prod.fst))]])]
  let (format, warnings) := responseFormatFields downlevel req.responseFormat
  let generation := temperatureField req.temperature ++
    (req.maxOutputTokens.map fun n => ("maxOutputTokens", Json.ofNat n)).toList ++ format
  let config : List (String × Json) :=
    if generation.isEmpty then [] else [("generationConfig", Json.mkObj generation)]
  (system ++ tools ++ config, declarations.flatMap Prod.snd ++ warnings)

/-- The body, and a warning for every schema rewriting that loses something. -/
def requestToGeminiWireWithWarnings (req : AiRequest) :
    Except String (Json × List SchemaWarning) := do
  req.validateCanonical
  let turns ← req.messages.mapM (geminiTurn (toolNames req.parts))
  let systemChunks := (req.system.filter fun system => system ≠ "").toList ++ turns.flatMap Prod.fst
  let (settings, warnings) := geminiSettings downlevel req systemChunks
  return (Json.mkObj (("contents", .arr (turns.flatMap Prod.snd)) :: settings), warnings)

def requestToGeminiWire (req : AiRequest) : Except String Json :=
  (requestToGeminiWireWithWarnings downlevel req).map Prod.fst

end

/-! ### Which requests are accepted -/

def ImageSource.hostedByGemini : ImageSource → Bool
  | .providerFileRef provider _ => !foreignOwner provider
  | _ => true

/-- Images are in user turns, and no file is another provider's. -/
def Message.ImagesOk (m : Message) : Prop :=
  ∀ source detail, .image source detail ∈ m.content → m.role = .user ∧ source.hostedByGemini = true

/-- The request is valid and its images can be sent. -/
def AiRequest.GeminiAccepts (req : AiRequest) : Prop :=
  req.validateCanonical = .ok () ∧ ∀ m ∈ req.messages, m.ImagesOk

theorem rejectImageParts_eq_ok_iff {parts : List ContentPart} {place : String} :
    rejectImageParts parts place = .ok () ↔ ∀ source detail, .image source detail ∉ parts := by
  unfold rejectImageParts
  cases h : parts.any ContentPart.isImage with
  | true =>
    obtain ⟨part, hmem, himage⟩ := List.any_eq_true.mp h
    cases part with
    | image source detail =>
      simp only [if_true]
      exact ⟨nofun, fun hno => absurd hmem (hno source detail)⟩
    | _ => simp [ContentPart.isImage] at himage
  | false =>
    simp only [Bool.false_eq_true, if_false, true_iff]
    intro source detail hmem
    exact absurd (List.any_eq_false.mp h _ hmem) (by simp [ContentPart.isImage])

theorem imageToGeminiPart_ok_iff {source : ImageSource} (h : source.validate = .ok ()) :
    (∃ part, imageToGeminiPart source = .ok part) ↔ source.hostedByGemini = true := by
  unfold imageToGeminiPart ImageSource.hostedByGemini
  rw [h]
  cases source with
  | inlineBase64 mediaType data => exact ⟨fun _ => rfl, fun _ => ⟨_, rfl⟩⟩
  | remoteUrl url =>
    refine ⟨fun _ => rfl, fun _ => ?_⟩
    dsimp only [bind, Except.bind]
    split <;> exact ⟨_, rfl⟩
  | providerFileRef provider id =>
    dsimp only [bind, Except.bind]
    cases foreignOwner provider with
    | true => simp
    | false => exact ⟨fun _ => rfl, fun _ => ⟨_, rfl⟩⟩

theorem userPart_ok_iff {part : ContentPart} (h : part.validate = .ok ()) :
    (∃ parts, userPart part = .ok parts) ↔
      ∀ source detail, part = .image source detail → source.hostedByGemini = true := by
  cases part with
  | image source detail =>
    have hsource := @imageToGeminiPart_ok_iff source h
    constructor
    · rintro ⟨parts, hparts⟩ source' detail' heq
      obtain ⟨rfl, rfl⟩ := ContentPart.image.inj heq
      obtain ⟨part, hpart, -⟩ := map_eq_ok_iff.mp hparts
      exact hsource.mp ⟨part, hpart⟩
    · intro hall
      obtain ⟨part, hpart⟩ := hsource.mpr (hall source detail rfl)
      exact ⟨[part], by rw [userPart, hpart]; rfl⟩
  | _ => exact ⟨fun _ => nofun, fun _ => ⟨_, rfl⟩⟩

theorem userParts_ok_iff {m : Message} (h : ∀ part ∈ m.content, part.validate = .ok ()) :
    (∃ parts, userParts m = .ok parts) ↔
      ∀ source detail, .image source detail ∈ m.content → source.hostedByGemini = true := by
  have hloop : (∃ parts, userParts m = .ok parts) ↔ ∃ r, m.content.mapM userPart = .ok r := by
    simp only [userParts, map_eq_ok_iff]
    exact ⟨fun ⟨_, r, hr, _⟩ => ⟨r, hr⟩, fun ⟨r, hr⟩ => ⟨_, r, hr, rfl⟩⟩
  rw [hloop, exists_mapM_eq_ok_iff]
  constructor
  · intro hall source detail hmem
    exact (userPart_ok_iff (h _ hmem)).mp (hall _ hmem) source detail rfl
  · intro hall part hmem
    refine (userPart_ok_iff (h part hmem)).mpr fun source detail heq => ?_
    exact hall source detail (heq ▸ hmem)

theorem geminiTurn_ok_iff {names : OrdMap String String} {m : Message}
    (h : ∀ part ∈ m.content, part.validate = .ok ()) :
    (∃ turn, geminiTurn names m = .ok turn) ↔ m.ImagesOk := by
  have hreject : ∀ place, m.role ≠ .user →
      (rejectImageParts m.content place = .ok () ↔ m.ImagesOk) := by
    intro place hrole
    rw [rejectImageParts_eq_ok_iff]
    constructor
    · intro hno source detail hmem
      exact absurd hmem (hno source detail)
    · intro hok source detail hmem
      exact hrole (hok source detail hmem).1
  unfold geminiTurn
  cases hrole : m.role with
  | user =>
    simp only [bind_eq_ok_iff, Message.ImagesOk, hrole, true_and]
    rw [← userParts_ok_iff h]
    exact ⟨fun ⟨_, parts, hparts, _⟩ => ⟨parts, hparts⟩,
      fun ⟨parts, hparts⟩ => ⟨_, parts, hparts, rfl⟩⟩
  | system =>
    simp only [bind_eq_ok_iff]
    rw [← hreject "Gemini system messages" (by simp [hrole])]
    exact ⟨fun ⟨_, ⟨⟩, hok, _⟩ => hok, fun hok => ⟨_, (), hok, rfl⟩⟩
  | assistant =>
    simp only [bind_eq_ok_iff]
    rw [← hreject "Gemini assistant messages" (by simp [hrole])]
    exact ⟨fun ⟨_, ⟨⟩, hok, _⟩ => hok, fun hok => ⟨_, (), hok, rfl⟩⟩
  | tool =>
    simp only [bind_eq_ok_iff]
    rw [← hreject "Gemini tool messages" (by simp [hrole])]
    exact ⟨fun ⟨_, ⟨⟩, hok, _⟩ => hok, fun hok => ⟨_, (), hok, rfl⟩⟩

/-! ### Tool results -/

/-- The name and the result of a part that is a tool result. -/
def partResponse (part : Json) : Option (Option Json × Option Json) :=
  (part.get "functionResponse").map fun response =>
    (response.get "name", response.pointer ["response", "result"])

def contentResponses (content : Json) : List (Option Json × Option Json) :=
  ((content.getArray "parts").getD []).filterMap partResponse

/-- The tool results of a body, in order. -/
def functionResponses (body : Json) : List (Option Json × Option Json) :=
  ((body.getArray "contents").getD []).flatMap contentResponses

/-- A tool result and the parts of the closest assistant turn before it. -/
structure ToolAnswer where
  turn : List ContentPart
  toolUseId : String
  content : String

def toolResultOf : ContentPart → Option (String × String)
  | .toolResult toolUseId content _ _ => some (toolUseId, content)
  | _ => none

/-- The tool results of the tool turns, in order; `turn` is the last assistant turn. -/
def answers (turn : List ContentPart) : List Message → List ToolAnswer
  | [] => []
  | m :: messages =>
      match m.role with
      | .assistant => answers m.content messages
      | .tool =>
          (m.content.filterMap toolResultOf).map (fun r => ⟨turn, r.1, r.2⟩) ++
            answers turn messages
      | _ => answers turn messages

/-- The response carries the name of a call of the turn with the answered identifier, and the
content of the answer. -/
def ToolAnswer.NamedIn (response : Option Json × Option Json) (a : ToolAnswer) : Prop :=
  ∃ name args, .toolUse a.toolUseId name args ∈ a.turn ∧
    response = (some (.str name), some (.str a.content))

/-- The tool results of the body are the answers of the conversation, each under the name of its
call. -/
def Attached (body : Json) (req : AiRequest) : Prop :=
  List.Forall₂ ToolAnswer.NamedIn (functionResponses body) (answers [] req.messages)

def calledName (id : String) : ContentPart → Option String
  | .toolUse id' name _ => if id' = id then some name else none
  | _ => none

/-- The name of the last call of the conversation with an identifier. -/
def AiRequest.lastName (req : AiRequest) (id : String) : Option String :=
  req.parts.reverse.findSome? (calledName id)

/-- Every answered call is in the closest assistant turn, and the last call with its identifier has
its name. -/
def AiRequest.NamesAgree (req : AiRequest) : Prop :=
  ∀ a ∈ answers [] req.messages, ∃ name args, .toolUse a.toolUseId name args ∈ a.turn ∧
    req.lastName a.toolUseId = some name

theorem get_toolNames (req : AiRequest) (id : String) :
    (toolNames req.parts).get id = req.lastName id := by
  have hfold : ∀ (parts : List ContentPart) (names : OrdMap String String),
      (parts.foldl (fun names part =>
        match part with
        | .toolUse id name _ => names.insert id name
        | _ => names) names).get id =
        (parts.reverse.findSome? (calledName id)).or (names.get id) := by
    intro parts
    induction parts with
    | nil => intro names; rfl
    | cons part parts ih =>
      intro names
      rw [List.foldl_cons, ih, List.reverse_cons, List.findSome?_append, Option.or_assoc]
      cases part with
      | toolUse id' name args =>
        rw [OrdMap.get_insert]
        by_cases h : id' = id
        · simp [calledName, h]
        · simp [calledName, h, Ne.symm h]
      | _ => rfl
  unfold toolNames AiRequest.lastName
  rw [hfold, OrdMap.get_empty, Option.or_none]

theorem partResponse_functionResponse (name result : String) :
    partResponse (GeminiPart.functionResponse name result) =
      some (some (.str name), some (.str result)) := by
  have hresponse : (GeminiPart.functionResponse name result).get "functionResponse" =
      some (Json.mkObj
        [("name", .str name), ("response", Json.mkObj [("result", .str result)])]) := by
    unfold GeminiPart.functionResponse
    rw [Json.get_mkObj (by simp)]
    rfl
  have hmember : ∀ key, (Json.mkObj
      [("name", .str name), ("response", Json.mkObj [("result", .str result)])]).get key =
      OrdMap.getList key
        [("name", .str name), ("response", Json.mkObj [("result", .str result)])] :=
    fun key => Json.get_mkObj (by simp) key
  unfold partResponse
  rw [hresponse, Option.map_some, hmember, Json.pointer, List.foldl_cons, Option.bind_some, hmember]
  rfl

/-- A part of another kind is no tool result. -/
theorem partResponse_mkObj {key : String} (h : key ≠ "functionResponse") (value : Json) :
    partResponse (Json.mkObj [(key, value)]) = none := by
  unfold partResponse
  rw [Json.get_mkObj (by simp)]
  simp [OrdMap.getList, h.symm]

theorem partResponse_text (t : String) : partResponse (GeminiPart.text t) = none :=
  partResponse_mkObj (by decide) _

theorem filterMap_text (t : String) :
    (if t = "" then [] else [GeminiPart.text t]).filterMap partResponse = [] := by
  split
  · rfl
  · rw [List.filterMap_cons, partResponse_text]; rfl

theorem filterMap_toolPart (names : OrdMap String String) (parts : List ContentPart) :
    (parts.flatMap (toolPart names)).filterMap partResponse =
      (parts.filterMap toolResultOf).map fun r =>
        (some (.str ((names.get r.1).getD r.1)), some (.str r.2)) := by
  induction parts with
  | nil => rfl
  | cons part parts ih =>
    rw [List.flatMap_cons, List.filterMap_append, ih]
    cases part with
    | toolResult toolUseId content contentParts isError =>
      rw [toolPart, List.filterMap_cons, partResponse_functionResponse]
      rfl
    | _ => rfl

theorem filterMap_assistantPart (parts : List ContentPart) :
    (parts.flatMap assistantPart).filterMap partResponse = [] := by
  induction parts with
  | nil => rfl
  | cons part parts ih =>
    rw [List.flatMap_cons, List.filterMap_append, ih, List.append_nil]
    cases part with
    | text t => exact filterMap_text t
    | toolUse id name args =>
      rw [assistantPart, GeminiPart.functionCall, List.filterMap_cons,
        partResponse_mkObj (by decide)]
      rfl
    | _ => rfl

theorem partResponse_image {source : ImageSource} {part : Json}
    (h : imageToGeminiPart source = .ok part) : partResponse part = none := by
  unfold imageToGeminiPart at h
  obtain ⟨⟨⟩, -, h⟩ := bind_eq_ok_iff.mp h
  cases source with
  | inlineBase64 mediaType data =>
    cases h
    exact partResponse_mkObj (by decide) _
  | remoteUrl url =>
    dsimp only at h
    split at h
    · cases h
      exact partResponse_mkObj (by decide) _
    · cases h
      exact partResponse_mkObj (by decide) _
  | providerFileRef provider id =>
    dsimp only at h
    split at h
    · cases h
    · cases h
      exact partResponse_mkObj (by decide) _

theorem filterMap_userPart {part : ContentPart} {parts : List Json}
    (h : userPart part = .ok parts) : parts.filterMap partResponse = [] := by
  cases part with
  | text t =>
    cases h
    exact filterMap_text t
  | image source detail =>
    obtain ⟨part, hpart, rfl⟩ := map_eq_ok_iff.mp h
    rw [List.filterMap_cons, partResponse_image hpart]
    rfl
  | _ => cases h; rfl

theorem filterMap_flatten_userPart {content : List ContentPart} {r : List (List Json)}
    (h : List.Forall₂ (fun part parts => userPart part = .ok parts) content r) :
    r.flatten.filterMap partResponse = [] := by
  induction h with
  | nil => rfl
  | cons hpart _ ih =>
    rw [List.flatten_cons, List.filterMap_append, filterMap_userPart hpart, ih]
    rfl

theorem filterMap_userParts {m : Message} {parts : List Json} (h : userParts m = .ok parts) :
    parts.filterMap partResponse = [] := by
  obtain ⟨r, hr, rfl⟩ := map_eq_ok_iff.mp h
  exact filterMap_flatten_userPart (mapM_eq_ok_iff.mp hr)

theorem contentResponses_contentOf (role : String) (parts : List Json) :
    (contentOf role parts).flatMap contentResponses = parts.filterMap partResponse := by
  unfold contentOf
  cases parts with
  | nil => rfl
  | cons part parts =>
    have hparts : (Json.mkObj [("role", .str role), ("parts", .arr (part :: parts))]).getArray
        "parts" = some (part :: parts) := by
      unfold Json.getArray
      rw [Json.get_mkObj (by simp)]
      rfl
    rw [List.isEmpty_cons, if_neg (by simp), List.flatMap_cons, List.flatMap_nil, List.append_nil,
      contentResponses, hparts, Option.getD_some]

/-- The tool results of a tool turn. -/
def turnResults (m : Message) : List (String × String) :=
  if m.role = .tool then m.content.filterMap toolResultOf else []

theorem responses_geminiTurn {names : OrdMap String String} {m : Message}
    {turn : List String × List Json} (h : geminiTurn names m = .ok turn) :
    turn.2.flatMap contentResponses = (turnResults m).map fun r =>
      (some (.str ((names.get r.1).getD r.1)), some (.str r.2)) := by
  unfold geminiTurn at h
  unfold turnResults
  cases hrole : m.role with
  | system =>
    rw [hrole] at h
    obtain ⟨⟨⟩, -, h⟩ := bind_eq_ok_iff.mp h
    cases h
    rfl
  | user =>
    rw [hrole] at h
    obtain ⟨parts, hparts, h⟩ := bind_eq_ok_iff.mp h
    cases h
    rw [contentResponses_contentOf, filterMap_userParts hparts]
    rfl
  | assistant =>
    rw [hrole] at h
    obtain ⟨⟨⟩, -, h⟩ := bind_eq_ok_iff.mp h
    cases h
    rw [contentResponses_contentOf, filterMap_assistantPart]
    rfl
  | tool =>
    rw [hrole] at h
    obtain ⟨⟨⟩, -, h⟩ := bind_eq_ok_iff.mp h
    cases h
    rw [contentResponses_contentOf, filterMap_toolPart, if_pos rfl]

theorem responses_turns {names : OrdMap String String} {messages : List Message}
    {turns : List (List String × List Json)}
    (h : List.Forall₂ (fun m turn => geminiTurn names m = .ok turn) messages turns) :
    (turns.flatMap Prod.snd).flatMap contentResponses =
      (messages.flatMap turnResults).map fun r =>
        (some (.str ((names.get r.1).getD r.1)), some (.str r.2)) := by
  induction h with
  | nil => rfl
  | cons hturn _ ih =>
    rw [List.flatMap_cons, List.flatMap_append, List.flatMap_cons, List.map_append, ih,
      responses_geminiTurn hturn]

theorem map_answers (turn : List ContentPart) (messages : List Message) :
    (answers turn messages).map (fun a => (a.toolUseId, a.content)) =
      messages.flatMap turnResults := by
  induction messages generalizing turn with
  | nil => rfl
  | cons m messages ih =>
    rw [answers, List.flatMap_cons, turnResults]
    cases m.role with
    | tool =>
      simp only [List.map_append, List.map_map, ih, if_true]
      congr 1
      exact List.map_id _
    | _ => exact ih _

theorem nodup_settings (downlevel : Json → Json × List SchemaWarning) (req : AiRequest)
    (systemChunks : List String) (contents : Json) :
    ((("contents", contents) :: (geminiSettings downlevel req systemChunks).1).map
      Prod.fst).Nodup := by
  unfold geminiSettings
  dsimp only
  split <;> split <;> split <;> simp

/-- A body is made exactly for an accepted request, and its tool results go by the map of names. -/
theorem requestToGeminiWire_spec (downlevel : Json → Json × List SchemaWarning) (req : AiRequest) :
    ((∃ body, requestToGeminiWire downlevel req = .ok body) ↔ req.GeminiAccepts) ∧
      ∀ body, requestToGeminiWire downlevel req = .ok body →
        functionResponses body = (answers [] req.messages).map fun a =>
          (some (.str ((req.lastName a.toolUseId).getD a.toolUseId)), some (.str a.content)) := by
  constructor
  · simp only [requestToGeminiWire, map_eq_ok_iff, requestToGeminiWireWithWarnings, bind_eq_ok_iff,
      AiRequest.GeminiAccepts]
    constructor
    · rintro ⟨_, _, ⟨⟨⟩, hvalid, turns, hturns, -⟩, -⟩
      refine ⟨hvalid, fun m hm => ?_⟩
      have hparts := forM_eq_ok_iff.mp hvalid
      refine (geminiTurn_ok_iff fun part hpart => hparts part ?_).mp
        (exists_mapM_eq_ok_iff.mp ⟨turns, hturns⟩ m hm)
      exact List.mem_flatMap.mpr ⟨m, hm, hpart⟩
    · rintro ⟨hvalid, himages⟩
      have hparts := forM_eq_ok_iff.mp hvalid
      obtain ⟨turns, hturns⟩ := exists_mapM_eq_ok_iff.mpr fun m hm =>
        (@geminiTurn_ok_iff (toolNames req.parts) m fun part hpart =>
          hparts part (List.mem_flatMap.mpr ⟨m, hm, hpart⟩)).mpr (himages m hm)
      exact ⟨_, _, ⟨(), hvalid, turns, hturns, rfl⟩, rfl⟩
  · intro body h
    simp only [requestToGeminiWire, map_eq_ok_iff, requestToGeminiWireWithWarnings,
      bind_eq_ok_iff] at h
    obtain ⟨_, ⟨⟨⟩, -, turns, hturns, hbody⟩, rfl⟩ := h
    cases hbody
    have hcontents : ∀ settings : List (String × Json),
        ((("contents", Json.arr (turns.flatMap Prod.snd)) :: settings).map Prod.fst).Nodup →
        (Json.mkObj (("contents", .arr (turns.flatMap Prod.snd)) :: settings)).getArray
          "contents" = some (turns.flatMap Prod.snd) := by
      intro settings hnodup
      unfold Json.getArray
      rw [Json.get_mkObj hnodup]
      rfl
    unfold functionResponses
    rw [hcontents _ (nodup_settings _ _ _ _), Option.getD_some,
      responses_turns (mapM_eq_ok_iff.mp hturns), ← map_answers [], List.map_map]
    refine List.map_congr_left fun a _ => ?_
    simp only [Function.comp_apply, get_toolNames]

theorem namedIn_iff {name : String} {a : ToolAnswer} :
    ToolAnswer.NamedIn (some (.str name), some (.str a.content)) a ↔
      ∃ args, .toolUse a.toolUseId name args ∈ a.turn := by
  unfold ToolAnswer.NamedIn
  constructor
  · rintro ⟨name', args, hmem, heq⟩
    simp only [Prod.mk.injEq, Option.some.injEq, Json.str.injEq, and_true] at heq
    exact ⟨args, heq ▸ hmem⟩
  · rintro ⟨args, hmem⟩
    exact ⟨name, args, hmem, rfl⟩

theorem mem_of_mem_turn {turn : List ContentPart} {messages : List Message} {a : ToolAnswer}
    (h : a ∈ answers turn messages) {part : ContentPart} (hpart : part ∈ a.turn) :
    part ∈ turn ++ messages.flatMap Message.content := by
  induction messages generalizing turn with
  | nil => simp [answers] at h
  | cons m messages ih =>
    rw [answers] at h
    rw [List.flatMap_cons]
    have hskip : a ∈ answers turn messages →
        part ∈ turn ++ (m.content ++ messages.flatMap Message.content) := by
      intro h
      rcases List.mem_append.mp (ih h) with hturn | hrest
      · exact List.mem_append_left _ hturn
      · exact List.mem_append_right _ (List.mem_append_right _ hrest)
    cases hrole : m.role with
    | assistant =>
      rw [hrole] at h
      exact List.mem_append_right _ (ih h)
    | tool =>
      rw [hrole] at h
      rcases List.mem_append.mp h with hhere | hrest
      · obtain ⟨r, -, rfl⟩ := List.mem_map.mp hhere
        exact List.mem_append_left _ hpart
      · exact hskip hrest
    | system => rw [hrole] at h; exact hskip h
    | user => rw [hrole] at h; exact hskip h

theorem lastName_isSome {req : AiRequest} {a : ToolAnswer} (h : a ∈ answers [] req.messages)
    {name : String} {args : Json} (hmem : .toolUse a.toolUseId name args ∈ a.turn) :
    (req.lastName a.toolUseId).isSome := by
  unfold AiRequest.lastName
  rw [List.findSome?_isSome_iff]
  have hpart : .toolUse a.toolUseId name args ∈ req.parts := mem_of_mem_turn h hmem
  exact ⟨_, List.mem_reverse.mpr hpart, by simp [calledName]⟩

/-- **Tool results go out under the names of the calls they answer** exactly when the request is
accepted and no call that is answered shares its identifier with a later call of another name. -/
theorem toolResults_named_iff (downlevel : Json → Json × List SchemaWarning) (req : AiRequest) :
    (∃ body, requestToGeminiWire downlevel req = .ok body ∧ Attached body req) ↔
      req.GeminiAccepts ∧ req.NamesAgree := by
  obtain ⟨haccepts, hresponses⟩ := requestToGeminiWire_spec downlevel req
  have hattached : ∀ body, requestToGeminiWire downlevel req = .ok body →
      (Attached body req ↔ req.NamesAgree) := by
    intro body hbody
    unfold Attached
    rw [hresponses body hbody, List.forall₂_map_left_iff, List.forall₂_same]
    refine forall₂_congr fun a ha => ?_
    rw [namedIn_iff]
    constructor
    · rintro ⟨args, hmem⟩
      obtain ⟨name, hname⟩ := Option.isSome_iff_exists.mp (lastName_isSome ha hmem)
      rw [hname] at hmem
      exact ⟨name, args, hmem, hname⟩
    · rintro ⟨name, args, hmem, hname⟩
      rw [hname]
      exact ⟨args, hmem⟩
  constructor
  · rintro ⟨body, hbody, h⟩
    exact ⟨haccepts.mp ⟨body, hbody⟩, (hattached body hbody).mp h⟩
  · rintro ⟨hok, hnames⟩
    obtain ⟨body, hbody⟩ := haccepts.mpr hok
    exact ⟨body, hbody, (hattached body hbody).mpr hnames⟩

/-- A response that calls `name`. -/
def callingBody (name : String) : Json :=
  Json.mkObj [("candidates", .arr [Json.mkObj [("content", Json.mkObj
    [("parts", .arr [GeminiPart.functionCall name (Json.mkObj [])])])]])]

/-- An assistant turn with one call of `name`. -/
def callingTurn (name : String) : Message where
  role := .assistant
  content := [.toolUse "call_0" name (Json.mkObj [])]

def answerTurn (content : String) : Message where
  role := .tool
  content := [.toolResult "call_0" content [] false]

/-- Two calls of different functions, one after the other. -/
def reusingRequest : AiRequest where
  id := "req"
  model := "gemini/gemini-2.0-flash"
  messages := [{ role := .user, content := [.text "weather and time?"] },
    callingTurn "get_weather", answerTurn "18C", callingTurn "get_time", answerTurn "noon"]

/-- The turns are the ones the decoders make, and the first result goes out under the name of the
second call. -/
theorem reused_id_renames :
    (parseGeminiResponse id (callingBody "get_weather")).toOption.map AiResponse.message =
        some (callingTurn "get_weather") ∧
      (collectResponse (fun _ => .ok (Json.mkObj []))
          ((({ model := "" } : GeminiStreamDecoder).decodeStream (fun _ => "\x7b\x7d")
            [callingBody "get_time"]).map .ok) "" "" none).toOption.map AiResponse.message =
        some (callingTurn "get_time") ∧
      (requestToGeminiWire (fun schema => (schema, [])) reusingRequest).toOption.map
          functionResponses =
        some [(some (.str "get_time"), some (.str "18C")),
          (some (.str "get_time"), some (.str "noon"))] ∧
      ¬ ∃ body, requestToGeminiWire (fun schema => (schema, [])) reusingRequest = .ok body ∧
        Attached body reusingRequest := by
  have hresponses : (requestToGeminiWire (fun schema => (schema, [])) reusingRequest).toOption.map
      functionResponses = some [(some (.str "get_time"), some (.str "18C")),
        (some (.str "get_time"), some (.str "noon"))] := by decide +kernel
  refine ⟨by decide +kernel, by decide +kernel, hresponses, ?_⟩
  rintro ⟨body, hbody, hattached⟩
  rw [hbody] at hresponses
  have hfirst : functionResponses body = _ := Option.some.inj hresponses
  unfold Attached at hattached
  rw [hfirst] at hattached
  obtain ⟨⟨name, args, hmem, hname⟩, -⟩ := List.forall₂_cons.mp hattached
  simp only [Prod.mk.injEq, Option.some.injEq, Json.str.injEq] at hname
  obtain ⟨rfl, -⟩ := hname
  simp [callingTurn] at hmem

end Switchback
