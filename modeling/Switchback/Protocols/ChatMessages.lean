import Switchback.Lib.Split
import Switchback.Protocols.OpenAiRequest
import Switchback.Protocols.OpenAiWire

/-!
# Chat Completions messages through the canonical request

A client's message is read into a canonical one and written again for an upstream that speaks the
same protocol.
-/

namespace Switchback

namespace ChatFidelity

open Lib

/-! ### What a message says -/

inductive Piece where
  | text (t : String)
  | image (url : String) (detail : Option String)
  deriving DecidableEq

def Piece.isImage : Piece → Bool
  | image .. => true
  | text _ => false

def Piece.asText : Piece → Option String
  | text t => some t
  | image .. => none

/-- A text part, or an image by its URL, which is a string or a member of an object. -/
def readPiece (part : Json) : Option Piece :=
  match part.getStr "type" with
  | some "text" => (part.getStr "text").map .text
  | some "image_url" => do
      let image ← part.get "image_url"
      let url ← image.asStr.or (image.getStr "url")
      return .image url (((image.get "detail").or (part.get "detail")).bind Json.asStr)
  | _ => none

/-- Text-only parts are joined. -/
inductive Content where
  | text (t : String)
  | pieces (l : List Piece)

def joined (pieces : List Piece) : Content :=
  if pieces.any Piece.isImage then .pieces pieces
  else .text (String.join (pieces.filterMap Piece.asText))

def readContent : Option Json → Option Content
  | none | some .null => some (.text "")
  | some (.str t) => some (.text t)
  | some (.arr parts) => (parts.mapM readPiece).map joined
  | some _ => none

structure ChatCall where
  id : Option String
  name : Option String
  arguments : Option String

def readCall (call : Json) : ChatCall where
  id := call.getStr "id"
  name := (call.get "function").bind (Json.getStr "name")
  arguments := (call.get "function").bind (Json.getStr "arguments")

def callsOf (message : Json) : List Json := (message.getArray "tool_calls").getD []

/-- The members a role has. -/
def knownKeys : Option String → List String
  | some "assistant" => ["role", "content", "tool_calls"]
  | some "tool" => ["role", "content", "tool_call_id"]
  | _ => ["role", "content"]

/-- The members beside those. -/
def extras (message : Json) : List (String × Json) :=
  (message.asObject.getD []).filter fun p => p.1 ∉ knownKeys (message.getStr "role")

/-! ### The same -/

section

variable (fromStr : String → Except String Json)

/-- Arguments that denote the same value; what is not JSON denotes itself. -/
def SameArguments (a a' : String) : Prop :=
  match fromStr a with
  | .ok v => fromStr a' = .ok v
  | .error _ => a' = a

structure SameCall (c c' : ChatCall) : Prop where
  id : c'.id = c.id
  name : c'.name = c.name
  arguments : ∃ a a', c.arguments = some a ∧ c'.arguments = some a' ∧ SameArguments fromStr a a'

structure SameMessage (m m' : Json) : Prop where
  role : m'.getStr "role" = m.getStr "role"
  content : readContent (m'.get "content") = readContent (m.get "content")
  calls : List.Forall₂ (fun c c' => SameCall fromStr (readCall c) (readCall c')) (callsOf m)
    (callsOf m')
  callId : m'.getStr "tool_call_id" = m.getStr "tool_call_id"
  extras : extras m' = extras m

/-- Parsing and printing are inverse on what is parsed and on strings. -/
structure Inverse (toJsonString : Json → String) : Prop where
  parsed : ∀ a v, fromStr a = .ok v → fromStr (toJsonString v) = .ok v
  string : ∀ t, fromStr (toJsonString (.str t)) = .ok (.str t)

def isSystem (message : Json) : Bool :=
  message.getStr "role" = some "system" ∨ message.getStr "role" = some "developer"

/-- The texts of system messages that say anything. -/
def systemTexts (messages : List Json) : List String :=
  messages.filterMap fun message =>
    match readContent (message.get "content") with
    | some (.text t) => if t = "" then none else some t
    | _ => none

/-- An image that can be sent on. -/
def ValidImage : Piece → Prop
  | .text _ => True
  | .image url _ => (ContentPart.imageUrl url none).validate = .ok ()

structure FitMessage (m : Json) : Prop where
  extras : extras m = []
  content : ∀ pieces, readContent (m.get "content") = some (.pieces pieces) → .text "" ∉ pieces
  arguments : ∀ call ∈ callsOf m, ∀ a, (readCall call).arguments = some a →
    ∃ v, fromStr a = .ok v

end

theorem splitOnceList_eq_some {sep l a b : List Char} (h : Text.splitOnceList sep l = some (a, b)) :
    l = a ++ sep ++ b := by
  induction l generalizing a with
  | nil =>
    rw [Text.splitOnceList] at h
    split at h
    · rename_i hsep
      cases h
      rw [List.isEmpty_iff.mp hsep]
      rfl
    · cases h
  | cons c l ih =>
    rw [Text.splitOnceList] at h
    cases hstrip : Text.stripPrefixList sep (c :: l) with
    | some rest =>
      rw [hstrip] at h
      cases h
      exact Text.stripPrefixList_eq_some_iff.mp hstrip
    | none =>
      rw [hstrip] at h
      obtain ⟨p, hp, heq⟩ := Option.map_eq_some_iff.mp h
      cases heq
      rw [ih hp]
      rfl

theorem splitBase64DataUrl_eq {url mediaType data : String}
    (h : ContentPart.splitBase64DataUrl url = some (mediaType, data)) :
    s!"data:{mediaType};base64,{data}" = url := by
  unfold ContentPart.splitBase64DataUrl at h
  obtain ⟨rest, hrest, h⟩ := Option.bind_eq_some_iff.mp h
  obtain ⟨⟨mediaType', data'⟩, hsplit, h⟩ := Option.bind_eq_some_iff.mp h
  dsimp only at h
  split at h
  · cases h
  · cases h
    obtain ⟨rest', hrest', rfl⟩ := Option.map_eq_some_iff.mp hrest
    obtain ⟨⟨a, b⟩, hab, heq⟩ := Option.map_eq_some_iff.mp hsplit
    cases heq
    have hurl := Text.stripPrefixList_eq_some_iff.mp hrest'
    have hparts := splitOnceList_eq_some hab
    simp only [String.toList_ofList] at hparts
    rw [hparts] at hurl
    refine String.toList_injective ?_
    show ((("data:" ++ String.ofList a) ++ ";base64,") ++ String.ofList b).toList = _
    rw [hurl]
    simp only [String.toList_append, String.toList_ofList, List.append_assoc]

/-- Where an image is. -/
def sourceOf (url : String) : ImageSource :=
  match ContentPart.splitBase64DataUrl url with
  | some (mediaType, data) => .inlineBase64 mediaType data
  | none => .remoteUrl url

theorem imageUrl_eq (url : String) (detail : Option ImageDetail) :
    ContentPart.imageUrl url detail = .image (sourceOf url) detail := by
  unfold ContentPart.imageUrl sourceOf
  cases ContentPart.splitBase64DataUrl url with
  | none => rfl
  | some p => rfl

theorem imageToOpenAiUrl_eq_ok_iff {url url' : String} :
    imageToOpenAiUrl (sourceOf url) = .ok url' ↔ (sourceOf url).validate = .ok () ∧ url' = url := by
  unfold imageToOpenAiUrl
  rw [bind_eq_ok_iff]
  cases hsplit : ContentPart.splitBase64DataUrl url with
  | none =>
    have hsource : sourceOf url = .remoteUrl url := by
      unfold sourceOf
      rw [hsplit]
    rw [hsource]
    constructor
    · rintro ⟨⟨⟩, hvalid, h⟩
      exact ⟨hvalid, (Except.ok.inj h).symm⟩
    · rintro ⟨hvalid, rfl⟩
      exact ⟨(), hvalid, rfl⟩
  | some p =>
    obtain ⟨mediaType, data⟩ := p
    have hsource : sourceOf url = .inlineBase64 mediaType data := by
      unfold sourceOf
      rw [hsplit]
    have hurl := splitBase64DataUrl_eq hsplit
    rw [hsource]
    constructor
    · rintro ⟨⟨⟩, hvalid, h⟩
      exact ⟨hvalid, (Except.ok.inj h).symm.trans hurl⟩
    · rintro ⟨hvalid, rfl⟩
      exact ⟨(), hvalid, congrArg Except.ok hurl⟩

/-! ### Content -/

/-- A piece and the canonical part it is read into. -/
def Reads : Piece → ContentPart → Prop
  | .text t, part => part = .text t
  | .image url detail, part =>
      ∃ parsed, part = .image (sourceOf url) parsed ∧ parsed.map ImageDetail.asStr = detail

theorem parseImageDetail_eq {value : Option String} {detail : Option ImageDetail}
    (h : parseImageDetail value = .ok detail) : detail.map ImageDetail.asStr = value := by
  cases value with
  | none => cases h; rfl
  | some value =>
    obtain ⟨detail', hparse, rfl⟩ := map_eq_ok_iff.mp h
    unfold ImageDetail.parse at hparse
    split at hparse <;> first | (cases hparse; rfl) | cases hparse

theorem parsePart_reads {p : Json} {part : ContentPart} (h : parseOpenAiContentPart p = .ok part) :
    ∃ piece, readPiece p = some piece ∧ Reads piece part := by
  unfold parseOpenAiContentPart at h
  unfold readPiece
  split at h
  · rename_i htype
    rw [htype]
    split at h
    · rename_i text htext
      cases h
      rw [htext]
      exact ⟨.text text, rfl, rfl⟩
    · cases h
  · rename_i htype
    rw [htype]
    split at h
    · cases h
    · rename_i image himage
      rw [himage, Option.bind_eq_bind, Option.bind_some]
      obtain ⟨detail, hdetail, h⟩ := bind_eq_ok_iff.mp h
      have hparsed := parseImageDetail_eq hdetail
      split at h
      · cases h
        exact ⟨.image _ _, rfl, detail, imageUrl_eq _ _, hparsed⟩
      · split at h
        · rename_i url hurl
          cases h
          refine ⟨.image url _, ?_, detail, imageUrl_eq _ _, hparsed⟩
          show (Option.or none _ >>= _) = _
          rw [Option.none_or, hurl]
          rfl
        · cases h
      · cases h
  · cases h
  · cases h

theorem parseParts_reads {ps : List Json} {parts : List ContentPart}
    (h : ps.mapM parseOpenAiContentPart = .ok parts) :
    ∃ pieces, ps.mapM readPiece = some pieces ∧ List.Forall₂ Reads pieces parts := by
  have hall := mapM_eq_ok_iff.mp h
  clear h
  induction hall with
  | nil => exact ⟨[], rfl, .nil⟩
  | cons hpart _ ih =>
    obtain ⟨pieces, hpieces, hreads⟩ := ih
    obtain ⟨piece, hpiece, hread⟩ := parsePart_reads hpart
    refine ⟨piece :: pieces, ?_, .cons hread hreads⟩
    rw [List.mapM_cons, hpiece, hpieces]
    rfl

theorem parseContent_reads {content : Option Json} {parts : List ContentPart}
    (h : parseOpenAiContentParts content = .ok parts) :
    ∃ pieces, readContent content = some (joined pieces) ∧ List.Forall₂ Reads pieces parts := by
  unfold parseOpenAiContentParts at h
  split at h
  · cases h
    exact ⟨[], rfl, .nil⟩
  · cases h
    exact ⟨[], rfl, .nil⟩
  · rename_i text
    cases h
    refine ⟨[.text text], ?_, .cons rfl .nil⟩
    show some (Content.text text) = some (.text (String.join [text]))
    simp [String.join]
  · rename_i ps
    obtain ⟨pieces, hpieces, hreads⟩ := parseParts_reads h
    refine ⟨pieces, ?_, hreads⟩
    show (ps.mapM readPiece).map joined = _
    rw [hpieces]
    rfl
  · cases h

section

variable {pieces : List Piece} {parts : List ContentPart}

variable {part : ContentPart} {piece : Piece}

theorem Reads.isImage (h : Reads piece part) : part.isImage = piece.isImage := by
  cases piece with
  | text t =>
    rw [show part = .text t from h]
    rfl
  | image url detail =>
    obtain ⟨parsed, rfl, -⟩ := h
    rfl

theorem Reads.asText (h : Reads piece part) : part.asText = piece.asText := by
  cases piece with
  | text t =>
    rw [show part = .text t from h]
    rfl
  | image url detail =>
    obtain ⟨parsed, rfl, -⟩ := h
    rfl

theorem any_isImage_of_reads (h : List.Forall₂ Reads pieces parts) :
    parts.any ContentPart.isImage = pieces.any Piece.isImage := by
  induction h with
  | nil => rfl
  | cons hread _ ih => rw [List.any_cons, List.any_cons, ih, hread.isImage]

theorem filterMap_asText_of_reads (h : List.Forall₂ Reads pieces parts) :
    parts.filterMap ContentPart.asText = pieces.filterMap Piece.asText := by
  induction h with
  | nil => rfl
  | cons hread _ ih => rw [List.filterMap_cons, List.filterMap_cons, ih, hread.asText]

theorem partsText_of_reads (h : List.Forall₂ Reads pieces parts) :
    partsText parts = String.join (pieces.filterMap Piece.asText) := by
  unfold partsText
  rw [filterMap_asText_of_reads h]

theorem validImage_image_iff (url : String) (detail : Option String) :
    ValidImage (.image url detail) ↔ (sourceOf url).validate = .ok () := by
  show (ContentPart.imageUrl url none).validate = .ok () ↔ _
  rw [imageUrl_eq]
  exact Iff.rfl

theorem Reads.validate_iff (h : Reads piece part) : part.validate = .ok () ↔ ValidImage piece := by
  cases piece with
  | text t =>
    rw [show part = .text t from h]
    exact iff_of_true rfl trivial
  | image url detail =>
    obtain ⟨parsed, rfl, -⟩ := h
    exact (validImage_image_iff url detail).symm

theorem validate_of_reads (h : List.Forall₂ Reads pieces parts) :
    (∀ part ∈ parts, part.validate = .ok ()) ↔ ∀ piece ∈ pieces, ValidImage piece := by
  induction h with
  | nil =>
    exact ⟨fun _ _ h => absurd h List.not_mem_nil, fun _ _ h => absurd h List.not_mem_nil⟩
  | cons hread _ ih => rw [List.forall_mem_cons, List.forall_mem_cons, ih, hread.validate_iff]

/-- The pieces that go out beside an image. -/
def kept (pieces : List Piece) : List Piece := pieces.filter fun piece => piece ≠ .text ""

theorem readPiece_image (url : String) (parsed : Option ImageDetail) :
    readPiece (Json.mkObj [("type", .str "image_url"), ("image_url", Json.mkObj
        ([("url", .str url)] ++ (parsed.map fun d => ("detail", Json.str d.asStr)).toList))]) =
      some (.image url (parsed.map ImageDetail.asStr)) := by
  generalize himage : Json.mkObj
    ([("url", .str url)] ++ (parsed.map fun d => ("detail", Json.str d.asStr)).toList) = image
  have hurl : image.getStr "url" = some url := by
    rw [← himage]
    unfold Json.getStr
    rw [Json.get_mkObj (by cases parsed <;> simp)]
    rfl
  have hstr : image.asStr = none := by
    rw [← himage]
    rfl
  have hdetail : image.get "detail" = parsed.map fun d => Json.str d.asStr := by
    rw [← himage, Json.get_mkObj (by cases parsed <;> simp)]
    cases parsed with
    | none => rfl
    | some d => rfl
  have hget (k : String) : (Json.mkObj [("type", .str "image_url"), ("image_url", image)]).get k =
      OrdMap.getList k [("type", .str "image_url"), ("image_url", image)] :=
    Json.get_mkObj (by simp) k
  have htype : (Json.mkObj [("type", .str "image_url"), ("image_url", image)]).getStr "type" =
      some "image_url" := by
    unfold Json.getStr
    rw [hget]
    rfl
  unfold readPiece
  rw [htype, hget, hget]
  show ((image.asStr.or (image.getStr "url")).bind fun url =>
    some (Piece.image url (((image.get "detail").or none).bind Json.asStr))) = _
  rw [hstr, hurl, hdetail, Option.or_none, Option.none_or, Option.bind_some]
  cases parsed with
  | none => rfl
  | some d => rfl

theorem contentPart_reads (h : Reads piece part) (hvalid : ValidImage piece) :
    ∃ js, openAiContentPart part = .ok js ∧
      js.mapM readPiece = some (if piece = .text "" then [] else [piece]) := by
  cases piece with
  | text t =>
    rw [show part = .text t from h]
    refine ⟨_, rfl, ?_⟩
    by_cases ht : t = ""
    · subst ht
      rfl
    · rw [if_neg ht, if_neg (by simpa using ht)]
      have hread : readPiece (Json.mkObj [("type", .str "text"), ("text", .str t)]) =
          some (.text t) := by
        unfold readPiece Json.getStr
        rw [Json.get_mkObj (by simp), Json.get_mkObj (by simp)]
        rfl
      rw [List.mapM_cons, hread]
      rfl
  | image url detail =>
    obtain ⟨parsed, rfl, rfl⟩ := h
    have hsource := (validImage_image_iff _ _).mp hvalid
    refine ⟨_, bind_eq_ok_iff.mpr ⟨url, imageToOpenAiUrl_eq_ok_iff.mpr ⟨hsource, rfl⟩, rfl⟩, ?_⟩
    rw [if_neg nofun, List.mapM_cons]
    have hread := readPiece_image url parsed
    rw [hread]
    rfl

theorem contentParts_reads (h : List.Forall₂ Reads pieces parts)
    (hvalid : ∀ piece ∈ pieces, ValidImage piece) :
    ∃ content, parts.mapM openAiContentPart = .ok content ∧
      content.flatten.mapM readPiece = some (kept pieces) := by
  induction h with
  | nil => exact ⟨[], rfl, rfl⟩
  | @cons piece part pieces parts hread _ ih =>
    obtain ⟨hpiece, hrest⟩ := List.forall_mem_cons.mp hvalid
    obtain ⟨content, hcontent, hflat⟩ := ih hrest
    obtain ⟨js, hjs, hpieces⟩ := contentPart_reads hread hpiece
    refine ⟨js :: content, mapM_eq_ok_iff.mpr (.cons hjs (mapM_eq_ok_iff.mp hcontent)), ?_⟩
    rw [List.flatten_cons, List.mapM_append, hpieces, hflat]
    unfold kept
    by_cases hempty : piece = .text ""
    · rw [if_pos hempty, List.filter_cons_of_neg (by simp [hempty])]
      rfl
    · rw [if_neg hempty, List.filter_cons_of_pos (by simp [hempty])]
      rfl

theorem any_isImage_kept : (kept pieces).any Piece.isImage = pieces.any Piece.isImage := by
  unfold kept
  rw [List.any_filter]
  refine congrArg pieces.any (funext fun piece => ?_)
  cases piece with
  | text t => exact Bool.and_false _
  | image url detail => rfl

theorem messageContent_reads (h : List.Forall₂ Reads pieces parts)
    (hvalid : ∀ piece ∈ pieces, ValidImage piece) :
    ∃ json, openAiMessageContent parts = .ok json ∧
      readContent (some json) =
        some (if pieces.any Piece.isImage then .pieces (kept pieces) else joined pieces) := by
  unfold openAiMessageContent
  rw [any_isImage_of_reads h]
  cases himage : pieces.any Piece.isImage with
  | true =>
    rw [if_pos rfl, if_pos rfl]
    obtain ⟨content, hcontent, hpieces⟩ := contentParts_reads h hvalid
    refine ⟨.arr content.flatten, map_eq_ok_iff.mpr ⟨content, hcontent, rfl⟩, ?_⟩
    show (content.flatten.mapM readPiece).map joined = _
    rw [hpieces, Option.map_some]
    unfold joined
    rw [any_isImage_kept, himage, if_pos rfl]
  | false =>
    rw [if_neg Bool.false_ne_true, if_neg Bool.false_ne_true]
    refine ⟨_, rfl, ?_⟩
    show some (Content.text (partsText parts)) = _
    unfold joined
    rw [partsText_of_reads h, himage, if_neg Bool.false_ne_true]

theorem sent_eq_iff :
    (if pieces.any Piece.isImage then Content.pieces (kept pieces) else joined pieces) =
        joined pieces ↔
      ∀ ps, joined pieces = .pieces ps → .text "" ∉ ps := by
  unfold joined
  cases himage : pieces.any Piece.isImage with
  | false =>
    rw [if_neg Bool.false_ne_true, if_neg Bool.false_ne_true]
    exact iff_of_true rfl nofun
  | true =>
    rw [if_pos rfl, if_pos rfl, Content.pieces.injEq]
    unfold kept
    rw [List.filter_eq_self]
    constructor
    · rintro h ps heq hmem
      cases heq
      exact of_decide_eq_true (h _ hmem) rfl
    · intro h piece hpiece
      refine decide_eq_true fun heq => h pieces rfl ?_
      rwa [← heq]

/-- A message with its images valid. -/
def ValidMessage (m : Json) : Prop :=
  ∀ pieces, readContent (m.get "content") = some (.pieces pieces) →
    ∀ piece ∈ pieces, ValidImage piece

theorem validMessage_iff {m : Json} (h : readContent (m.get "content") = some (joined pieces)) :
    ValidMessage m ↔ ∀ piece ∈ pieces, ValidImage piece := by
  unfold ValidMessage
  rw [h]
  unfold joined
  cases himage : pieces.any Piece.isImage with
  | true =>
    rw [if_pos rfl]
    exact ⟨fun hall => hall pieces rfl, fun hall ps heq => by cases heq; exact hall⟩
  | false =>
    rw [if_neg Bool.false_ne_true]
    refine iff_of_true (fun ps heq => by cases heq) fun piece hpiece => ?_
    cases piece with
    | text t => trivial
    | image url detail =>
      have hany : pieces.any Piece.isImage = true := List.any_eq_true.mpr ⟨_, hpiece, rfl⟩
      rw [himage] at hany
      cases hany

theorem parseText_reads {content : Option Json} {t : String}
    (h : parseTextContent content = .ok t) : readContent content = some (.text t) := by
  obtain ⟨parts, hparts, h⟩ := bind_eq_ok_iff.mp h
  obtain ⟨_, hreject, h⟩ := bind_eq_ok_iff.mp h
  cases h
  obtain ⟨pieces, hread, hreads⟩ := parseContent_reads hparts
  have himage : pieces.any Piece.isImage = false := by
    rw [← any_isImage_of_reads hreads]
    by_contra hany
    unfold rejectImageParts at hreject
    rw [if_pos (by simpa using hany)] at hreject
    cases hreject
  rw [hread, partsText_of_reads hreads]
  unfold joined
  rw [himage, if_neg Bool.false_ne_true]

end

/-! ### Tool calls -/

section

variable {fromStr : String → Except String Json} {toJsonString : Json → String}

theorem getStr_obj {v : Json} {fields : List (String × Json)} (h : v.asObject = some fields) :
    v = .obj fields := by
  cases v with
  | obj fields' => exact congrArg Json.obj (Option.some.inj h)
  | null => cases h
  | bool b => cases h
  | num n => cases h
  | str t => cases h
  | arr l => cases h

theorem parseToolCall_reads {call : Json} {part : ContentPart}
    (h : parseOpenAiToolCall fromStr call = .ok part) :
    ∃ id name a, readCall call = ⟨some id, some name, some a⟩ ∧
      part = .toolUse id name (parseToolArgs fromStr a) := by
  unfold parseOpenAiToolCall at h
  split at h
  · cases h
  · rename_i id hid
    split at h
    · cases h
    · rename_i function hfunction
      obtain ⟨v, hv, hobj⟩ := Option.bind_eq_some_iff.mp hfunction
      obtain rfl := getStr_obj hobj
      split at h
      · cases h
      · rename_i name hname
        split at h
        · cases h
        · rename_i arguments harguments
          cases h
          refine ⟨id, name, arguments, ?_, rfl⟩
          unfold readCall
          rw [hid, hv, Option.bind_some, Option.bind_some, hname, harguments]

/-- The call that goes out. -/
def sentCall (id name arguments : String) : Json :=
  Json.mkObj [("id", .str id), ("type", .str "function"),
    ("function", Json.mkObj [("name", .str name), ("arguments", .str arguments)])]

theorem readCall_sentCall (id name arguments : String) :
    readCall (sentCall id name arguments) = ⟨some id, some name, some arguments⟩ := by
  have hget (k : String) : (sentCall id name arguments).get k =
      OrdMap.getList k [("id", .str id), ("type", .str "function"),
        ("function", Json.mkObj [("name", .str name), ("arguments", .str arguments)])] :=
    Json.get_mkObj (by simp) k
  have hfunction (k : String) : (Json.mkObj [("name", .str name),
      ("arguments", .str arguments)]).get k =
        OrdMap.getList k [("name", .str name), ("arguments", .str arguments)] :=
    Json.get_mkObj (by simp) k
  unfold readCall Json.getStr
  rw [hget, hget]
  show ChatCall.mk _ ((Json.get "name" _).bind Json.asStr) ((Json.get "arguments" _).bind
    Json.asStr) = _
  rw [hfunction, hfunction]
  rfl

theorem sameArguments_iff (hinv : Inverse fromStr toJsonString) (a : String) :
    SameArguments fromStr a (toJsonString (parseToolArgs fromStr a)) ↔
      ∃ v, fromStr a = .ok v := by
  unfold SameArguments parseToolArgs
  cases ha : fromStr a with
  | ok v => exact iff_of_true (hinv.parsed a v ha) ⟨v, rfl⟩
  | error e =>
    refine iff_of_false (fun heq => ?_) (fun ⟨v, hv⟩ => by cases hv)
    have hstr := hinv.string a
    dsimp only at heq
    rw [heq, ha] at hstr
    cases hstr

/-- The calls of an assistant message are the same exactly when their arguments are JSON. -/
theorem sameCalls_iff (hinv : Inverse fromStr toJsonString) {calls : List Json}
    {uses : List ContentPart} (h : calls.mapM (parseOpenAiToolCall fromStr) = .ok uses) :
    List.Forall₂ (fun c c' => SameCall fromStr (readCall c) (readCall c')) calls
        (uses.filterMap (openAiToolCall toJsonString)) ↔
      ∀ call ∈ calls, ∀ a, (readCall call).arguments = some a → ∃ v, fromStr a = .ok v := by
  have hall := mapM_eq_ok_iff.mp h
  clear h
  induction hall with
  | nil => exact iff_of_true .nil fun _ h => absurd h List.not_mem_nil
  | @cons call use calls uses hcall _ ih =>
    obtain ⟨id, name, a, hread, rfl⟩ := parseToolCall_reads hcall
    have hsent : openAiToolCall toJsonString (.toolUse id name (parseToolArgs fromStr a)) =
        some (sentCall id name (toJsonString (parseToolArgs fromStr a))) := rfl
    rw [List.filterMap_cons_some hsent, List.forall₂_cons, List.forall_mem_cons, hread,
      readCall_sentCall]
    refine and_congr ?_ ih
    constructor
    · rintro ⟨-, -, a₁, a', ha₁, ha', hsame⟩ a₂ ha₂
      cases ha₁
      cases ha'
      cases ha₂
      exact (sameArguments_iff hinv a).mp hsame
    · exact fun hjson => ⟨rfl, rfl, a, _, rfl, rfl, (sameArguments_iff hinv a).mpr (hjson a rfl)⟩

theorem isToolUse_of_parse {calls : List Json} {uses : List ContentPart}
    (h : calls.mapM (parseOpenAiToolCall fromStr) = .ok uses) :
    ∀ use ∈ uses, ∃ id name args, use = .toolUse id name args := by
  intro use huse
  obtain ⟨call, -, hcall⟩ := exists_of_mem_mapM h huse
  obtain ⟨id, name, a, -, rfl⟩ := parseToolCall_reads hcall
  exact ⟨id, name, _, rfl⟩

end

/-! ### One message -/

section

variable {fromStr : String → Except String Json} {toJsonString : Json → String} {m m' : Json}

theorem extras_mkObj {fields : List (String × Json)} {role : Option String}
    (hrole : (Json.mkObj fields).getStr "role" = role)
    (h : ∀ k ∈ fields.map Prod.fst, k ∈ knownKeys role) : extras (Json.mkObj fields) = [] := by
  unfold extras
  rw [hrole]
  refine List.filter_eq_nil_iff.mpr fun p hp => ?_
  have hmem : p.1 ∈ (OrdMap.ofList fields).keys := List.mem_map.mpr ⟨p, hp, rfl⟩
  have hknown := h p.1 (OrdMap.mem_keys_ofList.mp hmem)
  simpa using hknown

theorem get_of_extras (h : extras m = []) {k : String} (hk : k ∉ knownKeys (m.getStr "role")) :
    m.get k = none := by
  unfold extras at h
  cases m with
  | obj fields =>
    refine OrdMap.getList_eq_none fun hmem => ?_
    obtain ⟨p, hp, rfl⟩ := List.mem_map.mp hmem
    exact List.filter_eq_nil_iff.mp h p hp (by simpa using hk)
  | null => rfl
  | bool b => rfl
  | num n => rfl
  | str t => rfl
  | arr l => rfl

theorem callsOf_of_extras (h : extras m = []) (hrole : "tool_calls" ∉ knownKeys (m.getStr "role")) :
    callsOf m = [] := by
  unfold callsOf Json.getArray
  rw [get_of_extras h hrole]
  rfl

theorem callId_of_extras (h : extras m = [])
    (hrole : "tool_call_id" ∉ knownKeys (m.getStr "role")) : m.getStr "tool_call_id" = none := by
  unfold Json.getStr
  rw [get_of_extras h hrole]
  rfl

theorem same_iff_fit (hrole : m'.getStr "role" = m.getStr "role") (hextras : extras m' = [])
    (hcontent : readContent (m'.get "content") = readContent (m.get "content") ↔
      ∀ pieces, readContent (m.get "content") = some (.pieces pieces) → .text "" ∉ pieces)
    (hcalls : extras m = [] →
      (List.Forall₂ (fun c c' => SameCall fromStr (readCall c) (readCall c')) (callsOf m)
        (callsOf m') ↔
        ∀ call ∈ callsOf m, ∀ a, (readCall call).arguments = some a → ∃ v, fromStr a = .ok v))
    (hcallId : extras m = [] → m'.getStr "tool_call_id" = m.getStr "tool_call_id") :
    SameMessage fromStr m m' ↔ FitMessage fromStr m := by
  constructor
  · intro h
    have hnone : extras m = [] := h.extras.symm.trans hextras
    exact ⟨hnone, hcontent.mp h.content, (hcalls hnone).mp h.calls⟩
  · intro h
    exact ⟨hrole, hcontent.mpr h.content, (hcalls h.extras).mpr h.arguments, hcallId h.extras,
      hextras.trans h.extras.symm⟩

/-- A message of the client and the canonical message it is read into. -/
structure Carried (fromStr : String → Except String Json) (toJsonString : Json → String) (m : Json)
    (msg : Message) : Prop where
  valid : (∀ part ∈ msg.content, part.validate = .ok ()) ↔ ValidMessage m
  sent : ValidMessage m → ∃ m', openAiMessages toJsonString msg = .ok [m'] ∧
    (SameMessage fromStr m m' ↔ FitMessage fromStr m)

variable {t : String} {uses : List ContentPart}

theorem text_same_iff (h : readContent (m.get "content") = some (.text t))
    (h' : readContent (m'.get "content") = some (.text t)) :
    readContent (m'.get "content") = readContent (m.get "content") ↔
      ∀ pieces, readContent (m.get "content") = some (.pieces pieces) → .text "" ∉ pieces := by
  rw [h, h']
  exact iff_of_true rfl nofun

theorem validMessage_text (h : readContent (m.get "content") = some (.text t)) :
    ValidMessage m := by
  intro pieces hpieces
  rw [h] at hpieces
  cases hpieces

theorem carried_user (hrole : m.getStr "role" = some "user") {parts : List ContentPart}
    (hparts : parseOpenAiContentParts (m.get "content") = .ok parts) :
    Carried fromStr toJsonString m { role := .user, content := parts } := by
  obtain ⟨pieces, hread, hreads⟩ := parseContent_reads hparts
  refine ⟨(validate_of_reads hreads).trans (validMessage_iff hread).symm, fun hvalid => ?_⟩
  obtain ⟨json, hjson, hsent⟩ := messageContent_reads hreads ((validMessage_iff hread).mp hvalid)
  have hget (k : String) : (Json.mkObj [("role", .str "user"), ("content", json)]).get k =
      OrdMap.getList k [("role", .str "user"), ("content", json)] := Json.get_mkObj (by simp) k
  have hrole' : (Json.mkObj [("role", .str "user"), ("content", json)]).getStr "role" =
      some "user" := by
    unfold Json.getStr
    rw [hget]
    rfl
  refine ⟨Json.mkObj [("role", .str "user"), ("content", json)],
    bind_eq_ok_iff.mpr ⟨json, hjson, rfl⟩, ?_⟩
  refine same_iff_fit (hrole'.trans hrole.symm) (extras_mkObj hrole' (by simp [knownKeys])) ?_ ?_ ?_
  · rw [hget, hread]
    show readContent (some json) = _ ↔ _
    rw [hsent, Option.some_inj, sent_eq_iff]
    exact forall_congr' fun ps => imp_congr_left Option.some_inj.symm
  · intro hextras
    have hnone : callsOf (Json.mkObj [("role", .str "user"), ("content", json)]) = [] := by
      unfold callsOf Json.getArray
      rw [hget]
      rfl
    rw [hnone, callsOf_of_extras hextras (by rw [hrole]; decide)]
    exact iff_of_true .nil fun _ h => absurd h List.not_mem_nil
  · intro hextras
    rw [callId_of_extras hextras (by rw [hrole]; decide)]
    unfold Json.getStr
    rw [hget]
    rfl

theorem carried_tool (hrole : m.getStr "role" = some "tool") {id : String}
    (hid : m.getStr "tool_call_id" = some id)
    (ht : parseTextContent (m.get "content") = .ok t) :
    Carried fromStr toJsonString m { role := .tool, content := [.toolResult id t [] false] } := by
  have hread := parseText_reads ht
  have hget (k : String) : (Json.mkObj [("role", .str "tool"), ("tool_call_id", .str id),
      ("content", .str t)]).get k = OrdMap.getList k [("role", .str "tool"),
        ("tool_call_id", .str id), ("content", .str t)] := Json.get_mkObj (by simp) k
  have hrole' : (Json.mkObj [("role", .str "tool"), ("tool_call_id", .str id),
      ("content", .str t)]).getStr "role" = some "tool" := by
    unfold Json.getStr
    rw [hget]
    rfl
  refine ⟨iff_of_true (List.forall_mem_singleton.mpr rfl) (validMessage_text hread),
    fun _ => ⟨_, rfl, ?_⟩⟩
  refine same_iff_fit (hrole'.trans hrole.symm) (extras_mkObj hrole' (by simp [knownKeys])) ?_ ?_ ?_
  · refine text_same_iff hread ?_
    rw [hget]
    rfl
  · intro hextras
    have hnone : callsOf (Json.mkObj [("role", .str "tool"), ("tool_call_id", .str id),
        ("content", .str t)]) = [] := by
      unfold callsOf Json.getArray
      rw [hget]
      rfl
    rw [hnone, callsOf_of_extras hextras (by rw [hrole]; decide)]
    exact iff_of_true .nil fun _ h => absurd h List.not_mem_nil
  · intro _
    rw [hid]
    unfold Json.getStr
    rw [hget]
    rfl

theorem toolUses_eq (h : chatToolUses fromStr (m.get "tool_calls") = .ok uses) :
    (callsOf m).mapM (parseOpenAiToolCall fromStr) = .ok uses := by
  unfold callsOf Json.getArray
  cases hcalls : m.get "tool_calls" with
  | none =>
    rw [hcalls] at h
    cases h
    rfl
  | some calls =>
    rw [hcalls] at h
    unfold chatToolUses at h
    dsimp only at h
    rw [Option.bind_some]
    split at h
    · cases h
    · rename_i calls' hcalls'
      rw [hcalls']
      exact h

/-- What an assistant message that goes out says. -/
structure Says (m' : Json) (t : String) (calls : List Json) : Prop where
  role : m'.getStr "role" = some "assistant"
  content : readContent (m'.get "content") = some (.text t)
  calls : callsOf m' = calls
  callId : m'.getStr "tool_call_id" = none
  extras : extras m' = []

theorem assistantMessage_reads (toJsonString : Json → String) (content : List ContentPart) :
    Says (openAiAssistantMessage toJsonString content) (partsText content)
      (content.filterMap (openAiToolCall toJsonString)) := by
  unfold openAiAssistantMessage
  generalize partsText content = t
  generalize content.filterMap (openAiToolCall toJsonString) = calls
  dsimp only
  split
  · rename_i hempty
    have hget (k : String) : (Json.mkObj [("role", .str Role.assistant.toOpenAi),
        ("content", .str t)]).get k = OrdMap.getList k [("role", .str Role.assistant.toOpenAi),
          ("content", .str t)] := Json.get_mkObj (by simp) k
    have hrole : (Json.mkObj [("role", .str Role.assistant.toOpenAi),
        ("content", .str t)]).getStr "role" = some "assistant" := by
      unfold Json.getStr
      rw [hget]
      rfl
    refine ⟨hrole, ?_, ?_, ?_, extras_mkObj hrole (by simp [knownKeys])⟩
    · rw [hget]
      rfl
    · unfold callsOf Json.getArray
      rw [hget, List.isEmpty_iff.mp hempty]
      rfl
    · unfold Json.getStr
      rw [hget]
      rfl
  · generalize hcontent : (if t = "" then Json.null else .str t) = json
    have hread : readContent (some json) = some (.text t) := by
      rw [← hcontent]
      split
      · rename_i ht
        rw [ht]
        rfl
      · rfl
    have hget (k : String) : (Json.mkObj [("role", .str Role.assistant.toOpenAi),
        ("content", json), ("tool_calls", .arr calls)]).get k =
          OrdMap.getList k [("role", .str Role.assistant.toOpenAi), ("content", json),
            ("tool_calls", .arr calls)] := Json.get_mkObj (by simp) k
    have hrole : (Json.mkObj [("role", .str Role.assistant.toOpenAi), ("content", json),
        ("tool_calls", .arr calls)]).getStr "role" = some "assistant" := by
      unfold Json.getStr
      rw [hget]
      rfl
    refine ⟨hrole, ?_, ?_, ?_, extras_mkObj hrole (by simp [knownKeys])⟩
    · rw [hget]
      exact hread
    · unfold callsOf Json.getArray
      rw [hget]
      rfl
    · unfold Json.getStr
      rw [hget]
      rfl

theorem assistantParts (toJsonString : Json → String) (t : String)
    (h : ∀ use ∈ uses, ∃ id name args, use = .toolUse id name args) :
    partsText ((if t = "" then [] else [.text t]) ++ uses) = t ∧
      ((if t = "" then [] else [ContentPart.text t]) ++ uses).any ContentPart.isImage = false ∧
      (∀ part ∈ (if t = "" then [] else [ContentPart.text t]) ++ uses, part.validate = .ok ()) ∧
      ((if t = "" then [] else [ContentPart.text t]) ++ uses).filterMap
        (openAiToolCall toJsonString) = uses.filterMap (openAiToolCall toJsonString) := by
  have htext : uses.filterMap ContentPart.asText = [] := by
    refine List.filterMap_eq_nil_iff.mpr fun use huse => ?_
    obtain ⟨id, name, args, rfl⟩ := h use huse
    rfl
  have himage : uses.any ContentPart.isImage = false := by
    refine List.any_eq_false.mpr fun use huse => ?_
    obtain ⟨id, name, args, rfl⟩ := h use huse
    exact Bool.false_ne_true
  have hvalid : ∀ use ∈ uses, use.validate = .ok () := by
    intro use huse
    obtain ⟨id, name, args, rfl⟩ := h use huse
    rfl
  unfold partsText
  rw [List.filterMap_append, List.filterMap_append, htext, List.append_nil, List.any_append,
    himage, Bool.or_false]
  by_cases ht : t = ""
  · subst ht
    exact ⟨rfl, rfl, hvalid, rfl⟩
  · rw [if_neg ht]
    refine ⟨?_, rfl, List.forall_mem_cons.mpr ⟨rfl, hvalid⟩, rfl⟩
    show String.join [t] = t
    simp [String.join]

theorem carried_assistant (hinv : Inverse fromStr toJsonString)
    (hrole : m.getStr "role" = some "assistant")
    (ht : parseTextContent (m.get "content") = .ok t)
    (huses : chatToolUses fromStr (m.get "tool_calls") = .ok uses) :
    Carried fromStr toJsonString m
      { role := .assistant, content := (if t = "" then [] else [.text t]) ++ uses } := by
  have hread := parseText_reads ht
  have hparse := toolUses_eq huses
  obtain ⟨htext, himage, hvalid, hcalls⟩ :=
    assistantParts toJsonString t (isToolUse_of_parse hparse)
  refine ⟨iff_of_true hvalid (validMessage_text hread), fun _ => ?_⟩
  have hreads := assistantMessage_reads toJsonString
    ((if t = "" then [] else [.text t]) ++ uses)
  rw [htext, hcalls] at hreads
  have hreject : rejectImageParts ((if t = "" then [] else [.text t]) ++ uses)
      "OpenAI assistant messages" = .ok () := by
    unfold rejectImageParts
    rw [himage, if_neg Bool.false_ne_true]
  refine ⟨_, bind_eq_ok_iff.mpr ⟨(), hreject, rfl⟩, ?_⟩
  refine same_iff_fit (hreads.role.trans hrole.symm) hreads.extras
    (text_same_iff hread hreads.content) (fun _ => ?_) (fun hextras => ?_)
  · rw [hreads.calls]
    exact sameCalls_iff hinv hparse
  · rw [hreads.callId, callId_of_extras hextras (by rw [hrole]; decide)]

theorem chatTurn_rest (hinv : Inverse fromStr toJsonString) (hm : isSystem m = false)
    {turn : List String × List Message} (h : chatTurn fromStr m = .ok turn) :
    ∃ msg, turn = ([], [msg]) ∧ Carried fromStr toJsonString m msg := by
  unfold isSystem at hm
  have hroles := of_decide_eq_false hm
  unfold chatTurn at h
  split at h
  · cases h
  · rename_i hrole
    exact absurd (Or.inl hrole) hroles
  · rename_i hrole
    exact absurd (Or.inr hrole) hroles
  · rename_i hrole
    obtain ⟨parts, hparts, h⟩ := bind_eq_ok_iff.mp h
    cases h
    exact ⟨_, rfl, carried_user hrole hparts⟩
  · rename_i hrole
    obtain ⟨t, ht, h⟩ := bind_eq_ok_iff.mp h
    obtain ⟨uses, huses, h⟩ := bind_eq_ok_iff.mp h
    cases h
    exact ⟨_, rfl, carried_assistant hinv hrole ht huses⟩
  · rename_i hrole
    split at h
    · cases h
    · rename_i id hid
      obtain ⟨t, ht, h⟩ := bind_eq_ok_iff.mp h
      cases h
      exact ⟨_, rfl, carried_tool hrole hid ht⟩
  · cases h

theorem chatTurn_system (hm : isSystem m = true) {turn : List String × List Message}
    (h : chatTurn fromStr m = .ok turn) : turn = (systemTexts [m], []) := by
  have hsystem : ∀ t, parseTextContent (m.get "content") = .ok t →
      systemTexts [m] = if t = "" then [] else [t] := by
    intro t ht
    unfold systemTexts
    rw [List.filterMap_cons, parseText_reads ht]
    dsimp only
    by_cases hempty : t = ""
    · rw [if_pos hempty, if_pos hempty]
      rfl
    · rw [if_neg hempty, if_neg hempty]
      rfl
  have hroles := of_decide_eq_true hm
  unfold chatTurn at h
  rcases hroles with hrole | hrole
  · rw [hrole] at h
    obtain ⟨t, ht, h⟩ := bind_eq_ok_iff.mp h
    cases h
    rw [hsystem t ht]
  · rw [hrole] at h
    obtain ⟨t, ht, h⟩ := bind_eq_ok_iff.mp h
    cases h
    rw [hsystem t ht]

end

end ChatFidelity

end Switchback
