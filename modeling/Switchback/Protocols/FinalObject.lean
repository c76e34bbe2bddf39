import Switchback.Protocols.UsageFrames

/-!
# The final object of a Responses client

A client that streams gets the final object in the `response.completed` frame, one that does not
gets it whole, rendered from the collected response.
-/

namespace Switchback

open Lib Metering

/-! ### What the events hold -/

namespace AiStreamEvent

def isText : AiStreamEvent → Bool
  | textDelta _ => true
  | _ => false

def isReasoning : AiStreamEvent → Bool
  | reasoningDelta _ => true
  | _ => false

end AiStreamEvent

def texts : List AiStreamEvent → String
  | [] => ""
  | .textDelta text :: events => text ++ texts events
  | _ :: events => texts events

def reasonings : List AiStreamEvent → String
  | [] => ""
  | .reasoningDelta text :: events => text ++ reasonings events
  | _ :: events => reasonings events

/-- Reasoning up to the next text or image. -/
def leadRest : List AiStreamEvent → String
  | [] => ""
  | .reasoningDelta text :: events => text ++ leadRest events
  | .textDelta _ :: _ => ""
  | .outputImage .. :: _ => ""
  | _ :: events => leadRest events

/-- The reasoning up to the first text or image behind it, if there is any reasoning. -/
def leadReasoning : List AiStreamEvent → Option String
  | [] => none
  | .reasoningDelta text :: events => some (text ++ leadRest events)
  | _ :: events => leadReasoning events

/-- Reasoning from the next text or image on. -/
def lateRest : List AiStreamEvent → String
  | [] => ""
  | .textDelta _ :: events => reasonings events
  | .outputImage .. :: events => reasonings events
  | _ :: events => lateRest events

/-- The reasoning behind the first text or image that follows reasoning. -/
def lateReasoning : List AiStreamEvent → String
  | [] => ""
  | .reasoningDelta _ :: events => lateRest events
  | _ :: events => lateReasoning events

/-- Fragments up to the next start or end of a call. -/
def openArgs : List AiStreamEvent → String
  | [] => ""
  | .toolCallArgsDelta _ json :: events => json ++ openArgs events
  | .toolCallStart _ :: _ => ""
  | .toolCallEnd _ :: _ => ""
  | _ :: events => openArgs events

/-- The calls in the order they start, each with the fragments up to the next start or end. -/
def callSegments : List AiStreamEvent → List OutputCall
  | [] => []
  | .toolCallStart start :: events =>
      { callId := start.id, name := start.name, args := openArgs events } :: callSegments events
  | _ :: events => callSegments events

def imagesOf (events : List AiStreamEvent) : List (String × String) :=
  events.filterMap fun
    | .outputImage mediaType data => some (mediaType, data)
    | _ => none

def citationsOf (events : List AiStreamEvent) : List (String × Option String) :=
  events.filterMap fun
    | .citation url title => some (url, title)
    | _ => none

/-- The server tools that completed. -/
def serverToolsOf (events : List AiStreamEvent) : List (String × String) :=
  events.filterMap fun
    | .serverToolCall id name status => if status = "completed" then some (id, name) else none
    | _ => none

theorem texts_append (a b : List AiStreamEvent) : texts (a ++ b) = texts a ++ texts b := by
  induction a with
  | nil => simp [texts]
  | cons event a ih => cases event <;> simp [texts, ih, String.append_assoc]

theorem reasonings_append (a b : List AiStreamEvent) :
    reasonings (a ++ b) = reasonings a ++ reasonings b := by
  induction a with
  | nil => simp [reasonings]
  | cons event a ih => cases event <;> simp [reasonings, ih, String.append_assoc]

theorem leadRest_append_lateRest (events : List AiStreamEvent) :
    leadRest events ++ lateRest events = reasonings events := by
  induction events with
  | nil => rfl
  | cons event events ih =>
    cases event with
    | reasoningDelta text => simp [leadRest, lateRest, reasonings, String.append_assoc, ih]
    | textDelta text => simp [leadRest, lateRest, reasonings]
    | outputImage mediaType data => simp [leadRest, lateRest, reasonings]
    | _ => simpa [leadRest, lateRest, reasonings] using ih

theorem leadReasoning_append_lateReasoning (events : List AiStreamEvent) :
    (leadReasoning events).getD "" ++ lateReasoning events = reasonings events := by
  induction events with
  | nil => rfl
  | cons event events ih =>
    cases event with
    | reasoningDelta text =>
      rw [leadReasoning, lateReasoning, reasonings, Option.getD_some, String.append_assoc,
        leadRest_append_lateRest]
    | _ => simpa [leadReasoning, lateReasoning, reasonings] using ih

theorem leadReasoning_isSome (events : List AiStreamEvent) :
    (leadReasoning events).isSome = events.any AiStreamEvent.isReasoning := by
  induction events with
  | nil => rfl
  | cons event events ih =>
    cases event <;> simp [leadReasoning, AiStreamEvent.isReasoning, ih]

/-! ### Objects up to identifiers -/

/-- The same members, but for one. -/
def SameExcept (key : String) (a b : Json) : Prop := ∀ k, k ≠ key → a.get k = b.get k

/-- The same object up to the identifiers of its output items. -/
def SameFinal (a b : Json) : Prop :=
  SameExcept "output" a b ∧
    ∃ items items', a.getArray "output" = some items ∧ b.getArray "output" = some items' ∧
      List.Forall₂ (SameExcept "id") items items'

theorem getList_of_mkObj_eq {fields fields' : List (String × Json)}
    (hf : (fields.map Prod.fst).Nodup) (hf' : (fields'.map Prod.fst).Nodup)
    (h : Json.mkObj fields = Json.mkObj fields') (k : String) :
    OrdMap.getList k fields = OrdMap.getList k fields' := by
  rw [← Json.get_mkObj hf, ← Json.get_mkObj hf', h]

namespace OutputItem

def isServerTool : OutputItem → Bool
  | serverTool .. => true
  | _ => false

theorem get_json (newId : String) (item : OutputItem) (k : String) :
    (item.json newId).get k = OrdMap.getList k (item.members newId) := by
  cases item <;> exact Json.get_mkObj (by simp [members]) k

def typeName : OutputItem → String
  | reasoning _ => "reasoning"
  | message .. => "message"
  | functionCall _ => "function_call"
  | image .. => "image_generation_call"
  | serverTool _ name _ => s!"{name}_call"

theorem getList_type (newId : String) (item : OutputItem) :
    OrdMap.getList "type" (item.members newId) = some (.str item.typeName) := by
  cases item <;> exact if_pos rfl

theorem isSome_action (newId : String) (item : OutputItem) :
    (OrdMap.getList "action" (item.members newId)).isSome = item.isServerTool := by
  cases item <;> simp [members, OrdMap.getList, isServerTool]

theorem getList_members {k : String} (hk : k ≠ "id") (i j : String) (item : OutputItem) :
    OrdMap.getList k (item.members i) = OrdMap.getList k (item.members j) := by
  cases item <;> simp only [members, OrdMap.getList, if_neg hk]

def summaryMembers (text : String) : List (String × Json) :=
  [("type", .str "summary_text"), ("text", .str text)]

def contentMembers (text : String) (annotations : List Json) : List (String × Json) :=
  [("type", .str "output_text"), ("text", .str text), ("annotations", .arr annotations)]

theorem sameExcept_json_iff {a b : OutputItem} (ha : a.isServerTool = false) (i j : String) :
    SameExcept "id" (a.json i) (b.json j) ↔ a = b := by
  constructor
  · intro h
    have hmember (k : String) (hk : k ≠ "id") :
        OrdMap.getList k (a.members i) = OrdMap.getList k (b.members j) := by
      rw [← get_json, ← get_json]
      exact h k hk
    have htype : a.typeName = b.typeName := by
      have htype := hmember "type" (by decide)
      rw [getList_type, getList_type] at htype
      exact Json.str.inj (Option.some.inj htype)
    have hb : b.isServerTool = false := by
      rw [← isSome_action j b, ← hmember "action" (by decide), isSome_action i a, ha]
    -- the types tell the kinds apart; the same kind has the same members
    cases a with
    | serverTool => cases ha
    | reasoning text =>
      cases b with
      | reasoning text' =>
        have hsummary : some (Json.arr [Json.mkObj (summaryMembers text)]) =
            some (Json.arr [Json.mkObj (summaryMembers text')]) := hmember "summary" (by decide)
        simp only [Option.some.injEq, Json.arr.injEq, List.cons.injEq, and_true] at hsummary
        have htext : some (Json.str text) = some (Json.str text') :=
          getList_of_mkObj_eq (by simp [summaryMembers]) (by simp [summaryMembers]) hsummary "text"
        rw [Json.str.inj (Option.some.inj htext)]
      | serverTool => cases hb
      | _ => simp [typeName] at htype
    | message text annotations =>
      cases b with
      | message text' annotations' =>
        have hcontent : some (Json.arr [Json.mkObj (contentMembers text annotations)]) =
            some (Json.arr [Json.mkObj (contentMembers text' annotations')]) :=
          hmember "content" (by decide)
        simp only [Option.some.injEq, Json.arr.injEq, List.cons.injEq, and_true] at hcontent
        have hkeys (text : String) (annotations : List Json) :
            ((contentMembers text annotations).map Prod.fst).Nodup := by simp [contentMembers]
        have htext : some (Json.str text) = some (Json.str text') :=
          getList_of_mkObj_eq (hkeys _ _) (hkeys _ _) hcontent "text"
        have hnotes : some (Json.arr annotations) = some (Json.arr annotations') :=
          getList_of_mkObj_eq (hkeys _ _) (hkeys _ _) hcontent "annotations"
        rw [Json.str.inj (Option.some.inj htext), Json.arr.inj (Option.some.inj hnotes)]
      | serverTool => cases hb
      | _ => simp [typeName] at htype
    | functionCall call =>
      cases b with
      | functionCall call' =>
        have hid : some (Json.str call.callId) = some (Json.str call'.callId) :=
          hmember "call_id" (by decide)
        have hname : some (Json.str call.name) = some (Json.str call'.name) :=
          hmember "name" (by decide)
        have hargs : some (Json.str call.args) = some (Json.str call'.args) :=
          hmember "arguments" (by decide)
        obtain ⟨callId, name, args⟩ := call
        obtain ⟨callId', name', args'⟩ := call'
        cases hid
        cases hname
        cases hargs
        rfl
      | serverTool => cases hb
      | _ => simp [typeName] at htype
    | image mediaType data =>
      cases b with
      | image mediaType' data' =>
        have hdata : some (Json.str data) = some (Json.str data') :=
          hmember "result" (by decide)
        have hformat : some (Json.str mediaType) = some (Json.str mediaType') :=
          hmember "output_format" (by decide)
        rw [Json.str.inj (Option.some.inj hdata), Json.str.inj (Option.some.inj hformat)]
      | serverTool => cases hb
      | _ => simp [typeName] at htype
  · rintro rfl k hk
    rw [get_json, get_json]
    exact getList_members hk i j a

/-- A rendering of an item, under some identifier. -/
def Renders (value : Json) (item : OutputItem) : Prop := ∃ newId, value = item.json newId

/-- **Items up to identifiers**: rendered items are the same iff the items are. -/
theorem forall₂_sameExcept_iff {values values' : List Json} {items items' : List OutputItem}
    (h : List.Forall₂ Renders values items) (h' : List.Forall₂ Renders values' items')
    (hitems : ∀ item ∈ items, item.isServerTool = false) :
    List.Forall₂ (SameExcept "id") values values' ↔ items = items' := by
  induction h generalizing values' items' with
  | nil =>
    cases h' with
    | nil => simp
    | cons => simp
  | cons hvalue _ ih =>
    cases h' with
    | nil => simp
    | cons hvalue' hrest =>
      obtain ⟨hitem, hitems⟩ := List.forall_mem_cons.1 hitems
      obtain ⟨i, rfl⟩ := hvalue
      obtain ⟨j, rfl⟩ := hvalue'
      rw [List.forall₂_cons, sameExcept_json_iff hitem, ih hrest hitems, List.cons.injEq]

theorem renders_mapIdx (newId : ℕ → OutputItem → String) (items : List OutputItem) :
    List.Forall₂ Renders (items.mapIdx fun n item => item.json (newId n item)) items := by
  induction items generalizing newId with
  | nil => exact .nil
  | cons item items ih =>
    rw [List.mapIdx_cons]
    exact .cons ⟨_, rfl⟩ (ih fun n => newId (n + 1))

def asReasoning : OutputItem → Option String
  | reasoning text => some text
  | _ => none

def asMessage : OutputItem → Option (String × List Json)
  | message text annotations => some (text, annotations)
  | _ => none

def asCall : OutputItem → Option OutputCall
  | functionCall call => some call
  | _ => none

def asImage : OutputItem → Option (String × String)
  | image mediaType data => some (mediaType, data)
  | _ => none

def asServerTool : OutputItem → Option (String × String × Json)
  | serverTool id name action => some (id, name, action)
  | _ => none

/-- Each kind of item is read off a list alone. -/
theorem append_eq_append_iff {texts texts' : List String} {messages messages' : List
    (String × List Json)} {calls calls' : List OutputCall} {images : List (String × String)}
    {serverTools : List (String × String × Json)} :
    texts.map reasoning ++ messages.map (fun m => message m.1 m.2) ++ calls.map functionCall =
      texts'.map reasoning ++ messages'.map (fun m => message m.1 m.2) ++
        (images.map (fun m => image m.1 m.2) ++
          serverTools.map (fun m => serverTool m.1 m.2.1 m.2.2) ++ calls'.map functionCall) ↔
      texts = texts' ∧ messages = messages' ∧ calls = calls' ∧ images = [] ∧
        serverTools = [] := by
  constructor
  · intro h
    have htexts := congrArg (List.filterMap asReasoning) h
    have hmessages := congrArg (List.filterMap asMessage) h
    have hcalls := congrArg (List.filterMap asCall) h
    have himages := congrArg (List.filterMap asImage) h
    have hserver := congrArg (List.filterMap asServerTool) h
    simp only [List.filterMap_append, List.filterMap_map, Function.comp_def, asReasoning]
      at htexts
    simp only [List.filterMap_append, List.filterMap_map, Function.comp_def, asMessage]
      at hmessages
    simp only [List.filterMap_append, List.filterMap_map, Function.comp_def, asCall] at hcalls
    simp only [List.filterMap_append, List.filterMap_map, Function.comp_def, asImage] at himages
    simp only [List.filterMap_append, List.filterMap_map, Function.comp_def, asServerTool]
      at hserver
    simp at htexts hmessages hcalls himages hserver
    exact ⟨htexts, hmessages, hcalls, himages, hserver⟩
  · rintro ⟨rfl, rfl, rfl, rfl, rfl⟩
    simp

end OutputItem

/-! ### The collected response -/

/-- What collecting makes of the events. -/
structure Gathered (st : CollectState) (events : List AiStreamEvent) (st' : CollectState) :
    Prop where
  content : st'.content = st.content ++ texts events
  reasoning : st'.reasoning = st.reasoning ++ reasonings events
  images : st'.images = st.images ++
    (imagesOf events).map fun p => ContentPart.imageBase64 p.1 p.2
  citations : st'.citations = st.citations ++
    (citationsOf events).map fun p => .citation p.1 p.2 none
  serverTools : st'.serverTools = st.serverTools ++
    (serverToolsOf events).map fun p => .serverToolUse p.1 p.2 .null
  usage : st'.usage = events.foldl noteUsage st.usage
  finishReason : st'.finishReason = events.foldl noteFinish st.finishReason

theorem gathered_single (st : CollectState) (event : AiStreamEvent) :
    Gathered st [event] (gather st event) := by
  cases event with
  | serverToolCall id name status =>
    by_cases h : status = "completed" <;> constructor <;>
      simp [h, texts, reasonings, imagesOf, citationsOf, serverToolsOf, noteUsage, noteFinish]
  | _ =>
    constructor <;>
      simp [texts, reasonings, imagesOf, citationsOf, serverToolsOf, noteUsage, noteFinish]

theorem Gathered.append {st st' st'' : CollectState} {a b : List AiStreamEvent}
    (h : Gathered st a st') (h' : Gathered st' b st'') : Gathered st (a ++ b) st'' where
  content := by rw [h'.content, h.content, texts_append, String.append_assoc]
  reasoning := by rw [h'.reasoning, h.reasoning, reasonings_append, String.append_assoc]
  images := by
    rw [h'.images, h.images, imagesOf, imagesOf, imagesOf, List.filterMap_append, List.map_append,
      List.append_assoc]
  citations := by
    rw [h'.citations, h.citations, citationsOf, citationsOf, citationsOf, List.filterMap_append,
      List.map_append, List.append_assoc]
  serverTools := by
    rw [h'.serverTools, h.serverTools, serverToolsOf, serverToolsOf, serverToolsOf,
      List.filterMap_append, List.map_append, List.append_assoc]
  usage := by rw [h'.usage, h.usage, List.foldl_append]
  finishReason := by rw [h'.finishReason, h.finishReason, List.foldl_append]

theorem gathered_foldl (st : CollectState) (events : List AiStreamEvent) :
    Gathered st events (events.foldl gather st) := by
  induction events generalizing st with
  | nil => constructor <;> simp [texts, reasonings, imagesOf, citationsOf, serverToolsOf]
  | cons event events ih => exact (gathered_single st event).append (ih _)

section Whole

variable {fromStr : String → Except String Json} {toJsonString : Json → String}
  {events : List AiStreamEvent} {st : CollectState} {id model : String}

theorem Gathered.parts_eq (h : Gathered {} events st) :
    st.parts fromStr =
      (if reasonings events = "" then []
        else [ContentPart.reasoning (reasonings events) none]) ++
        (if texts events = "" then [] else [ContentPart.text (texts events)]) ++
        ((imagesOf events).map fun p => ContentPart.imageBase64 p.1 p.2) ++
        ((citationsOf events).map fun p => ContentPart.citation p.1 p.2 none) ++
        ((serverToolsOf events).map fun p => ContentPart.serverToolUse p.1 p.2 Json.null) ++
        st.toolUses.entries.map fun p =>
          ContentPart.toolUse p.2.id p.2.name (parseArgs fromStr p.2.args) := by
  unfold CollectState.parts
  rw [h.content, h.reasoning, h.images, h.citations, h.serverTools]
  simp only [String.empty_append, List.nil_append]

theorem Gathered.text_eq (h : Gathered {} events st) :
    (st.response fromStr id model).message.text = texts events := by
  have hkinds : (st.parts fromStr).filterMap ContentPart.asText =
      if texts events = "" then [] else [texts events] := by
    rw [h.parts_eq]
    simp only [List.filterMap_append, List.filterMap_map, Function.comp_def,
      ContentPart.imageBase64, ContentPart.asText]
    split_ifs <;> simp [ContentPart.asText]
  rw [Message.text, partsText, CollectState.response, hkinds]
  split_ifs with hempty
  · exact hempty.symm
  · simp

/-- The calls of a response, their arguments printed. -/
def printedCalls (toJsonString : Json → String) (content : List ContentPart) : List OutputCall :=
  content.filterMap fun
    | .toolUse id name args => some { callId := id, name := name, args := toJsonString args }
    | _ => none

def citationJson (p : String × Option String) : Json :=
  Json.mkObj [("type", .str "url_citation"), ("url", .str p.1), ("title", p.2.elim .null Json.str)]

/-- **The items of the whole object.** -/
theorem Gathered.responseItems_eq (h : Gathered {} events st) :
    responseItems toJsonString (st.response fromStr id model) =
      (if reasonings events = "" then [] else [reasonings events]).map OutputItem.reasoning ++
        ((if texts events = "" then []
          else [(texts events, (citationsOf events).map citationJson)]).map fun m =>
            OutputItem.message m.1 m.2) ++
        (((imagesOf events).map fun m => OutputItem.image m.1 m.2) ++
          (((serverToolsOf events).map fun p => (p.1, p.2, Json.null)).map fun m =>
            OutputItem.serverTool m.1 m.2.1 m.2.2) ++
          (printedCalls toJsonString (st.response fromStr id model).message.content).map
            OutputItem.functionCall) := by
  have hcitations : urlCitations (st.parts fromStr) = (citationsOf events).map citationJson := by
    rw [h.parts_eq, urlCitations]
    simp only [List.filterMap_append, List.filterMap_map, Function.comp_def,
      ContentPart.imageBase64]
    split_ifs <;> simp [citationJson]
  unfold responseItems
  rw [h.text_eq]
  simp only [CollectState.response, hcitations]
  rw [h.parts_eq]
  simp only [List.filterMap_append, List.filterMap_map, Function.comp_def,
    ContentPart.imageBase64, printedCalls]
  split_ifs <;> simp_all [Function.comp_def]

end Whole

/-! ### The streamed object -/

/-- The objects of the `response.completed` frames. -/
def completedResponses (frames : List SseFrame) : List Json :=
  frames.filterMap fun f => if f.event = "response.completed" then f.data.get "response" else none

theorem completedResponses_eq_nil {frames : List SseFrame}
    (h : ∀ f ∈ frames, f.event ≠ "response.completed") : completedResponses frames = [] := by
  rw [completedResponses, List.filterMap_eq_nil_iff]
  exact fun f hf => if_neg (h f hf)

namespace OpenAiResponsesStreamEncoder

variable (newId : String → ℕ → String) (e : OpenAiResponsesStreamEncoder)

/-- The encoder after some events. -/
def after (events : List AiStreamEvent) : OpenAiResponsesStreamEncoder :=
  events.foldl (fun e event => (e.encode newId event).2) e

theorem closeReasoning_snd :
    e.closeReasoning.2 = { e with
      reasoningItem :=
        if !e.reasoningOpen || e.reasoningItem.isSome then e.reasoningItem
        else some (reasoningItemJson e.reasoningId [summaryText e.reasoning])
      outputIndex :=
        if !e.reasoningOpen || e.reasoningItem.isSome then e.outputIndex
        else e.outputIndex + 1 } := by
  unfold closeReasoning
  split <;> rfl

theorem openText_snd : e.openText.2 = { e with textOpen := true } := by
  unfold openText
  split_ifs with h
  · rw [← h]
  · rfl

theorem openReasoning_snd : e.openReasoning.2 = { e with reasoningOpen := true } := by
  unfold openReasoning
  split_ifs with h
  · rw [← h]
  · rfl

section Fields

variable {event : AiStreamEvent} (h : event.isEnd = false)

include h

theorem encode_text :
    (e.encode newId event).2.text = e.text ++ texts [event] ∧
      (e.encode newId event).2.textOpen = (e.textOpen || event.isText) := by
  cases event with
  | messageEnd => cases h
  | _ =>
    simp [encode, closeReasoning_snd, openText_snd, openReasoning_snd, takeTool, texts,
      AiStreamEvent.isText]

theorem encode_names :
    (e.encode newId event).2.responseId = e.responseId ∧
      (e.encode newId event).2.model = e.model ∧
      (e.encode newId event).2.itemId = e.itemId ∧
      (e.encode newId event).2.reasoningId = e.reasoningId := by
  cases event with
  | messageEnd => cases h
  | _ => simp [encode, closeReasoning_snd, openText_snd, openReasoning_snd, takeTool]

/-- The calls that go out at the end when `rest` is still to come. -/
def pendingCalls (e : OpenAiResponsesStreamEncoder) (rest : List AiStreamEvent) :
    List OutputCall :=
  e.toolCalls ++ (e.curTool.map fun call => { call with args := call.args ++ openArgs rest }).toList
    ++ callSegments rest

theorem pendingCalls_encode (rest : List AiStreamEvent) :
    pendingCalls (e.encode newId event).2 rest = pendingCalls e (event :: rest) := by
  unfold pendingCalls
  cases event with
  | messageEnd => cases h
  | toolCallStart start => cases hcur : e.curTool <;>
      simp [encode, takeTool, openArgs, callSegments, hcur]
  | toolCallArgsDelta index json => cases hcur : e.curTool <;>
      simp [encode, openArgs, callSegments, hcur, String.append_assoc]
  | toolCallEnd index => cases hcur : e.curTool <;>
      simp [encode, takeTool, openArgs, callSegments, hcur]
  | _ =>
    simp [encode, closeReasoning_snd, openText_snd, openReasoning_snd, openArgs, callSegments]

/-- The reasoning item that goes out at the end when `rest` is still to come. -/
def pendingReasoning (e : OpenAiResponsesStreamEncoder) (rest : List AiStreamEvent) :
    Option Json :=
  if e.reasoningItem.isSome then e.reasoningItem
  else if e.reasoningOpen then
    some (reasoningItemJson e.reasoningId [summaryText (e.reasoning ++ leadRest rest)])
  else (leadReasoning rest).map fun text =>
    reasoningItemJson e.reasoningId [summaryText (e.reasoning ++ text)]

theorem pendingReasoning_encode (rest : List AiStreamEvent) :
    pendingReasoning (e.encode newId event).2 rest = pendingReasoning e (event :: rest) := by
  unfold pendingReasoning
  cases event with
  | messageEnd => cases h
  | _ =>
    cases hitem : e.reasoningItem <;> cases hopen : e.reasoningOpen <;>
      simp [encode, closeReasoning_snd, openText_snd, openReasoning_snd, takeTool, leadRest,
        leadReasoning, hitem, hopen, String.append_assoc]

end Fields

section After

variable {events : List AiStreamEvent} (h : ∀ event ∈ events, event.isEnd = false)

include h

theorem after_text :
    (e.after newId events).text = e.text ++ texts events ∧
      (e.after newId events).textOpen = (e.textOpen || events.any AiStreamEvent.isText) := by
  induction events generalizing e with
  | nil => simp [after, texts]
  | cons event events ih =>
    obtain ⟨hevent, hevents⟩ := List.forall_mem_cons.1 h
    obtain ⟨htext, hopen⟩ := ih (e.encode newId event).2 hevents
    obtain ⟨htext', hopen'⟩ := e.encode_text newId hevent
    constructor
    · rw [after, List.foldl_cons, ← after, htext, htext', String.append_assoc, ← texts_append,
        List.singleton_append]
    · rw [after, List.foldl_cons, ← after, hopen, hopen', List.any_cons, Bool.or_assoc]

theorem after_names :
    (e.after newId events).responseId = e.responseId ∧
      (e.after newId events).model = e.model ∧
      (e.after newId events).itemId = e.itemId ∧
      (e.after newId events).reasoningId = e.reasoningId := by
  induction events generalizing e with
  | nil => exact ⟨rfl, rfl, rfl, rfl⟩
  | cons event events ih =>
    obtain ⟨hevent, hevents⟩ := List.forall_mem_cons.1 h
    obtain ⟨h1, h2, h3, h4⟩ := ih (e.encode newId event).2 hevents
    obtain ⟨h1', h2', h3', h4'⟩ := e.encode_names newId hevent
    exact ⟨h1.trans h1', h2.trans h2', h3.trans h3', h4.trans h4'⟩

theorem after_usage : (e.after newId events).usage = events.foldl noteUsage e.usage := by
  induction events generalizing e with
  | nil => rfl
  | cons event events ih =>
    obtain ⟨hevent, hevents⟩ := List.forall_mem_cons.1 h
    rw [after, List.foldl_cons, ← after, ih _ hevents, (e.silent_encode newId hevent).usage,
      List.foldl_cons]

theorem after_calls : (e.after newId events).takeTool.toolCalls = pendingCalls e events := by
  induction events generalizing e with
  | nil =>
    unfold pendingCalls
    cases hcur : e.curTool <;> simp [after, takeTool, openArgs, callSegments, hcur]
  | cons event events ih =>
    obtain ⟨hevent, hevents⟩ := List.forall_mem_cons.1 h
    rw [after, List.foldl_cons, ← after, ih _ hevents, pendingCalls_encode newId e hevent]

theorem after_reasoning :
    (e.after newId events).closeReasoning.2.reasoningItem = pendingReasoning e events := by
  induction events generalizing e with
  | nil =>
    rw [after, List.foldl_nil, closeReasoning_snd]
    unfold pendingReasoning
    cases hitem : e.reasoningItem <;> cases hopen : e.reasoningOpen <;>
      simp [leadRest, leadReasoning]
  | cons event events ih =>
    obtain ⟨hevent, hevents⟩ := List.forall_mem_cons.1 h
    rw [after, List.foldl_cons, ← after, ih _ hevents, pendingReasoning_encode newId e hevent]

end After

theorem toolItems_renders (outputIndex drawn : ℕ) (calls : List OutputCall) :
    List.Forall₂ OutputItem.Renders (toolItems newId outputIndex drawn calls).2
      (calls.map OutputItem.functionCall) := by
  induction calls generalizing outputIndex drawn with
  | nil => exact .nil
  | cons call calls ih => exact .cons ⟨newId "fc" drawn, rfl⟩ (ih _ _)

end OpenAiResponsesStreamEncoder

theorem sameFinal_finalObject_iff {id status status' model : String} {output output' : List Json}
    {usage usage' : Usage} :
    SameFinal (finalObject id status model output usage)
        (finalObject id status' model output' usage') ↔
      status = status' ∧ shownUsage usage = shownUsage usage' ∧
        List.Forall₂ (SameExcept "id") output output' := by
  have houtput (status : String) (output : List Json) (usage : Usage) :
      (finalObject id status model output usage).getArray "output" = some output := by
    rw [Json.getArray, get_finalObject]
    rfl
  constructor
  · rintro ⟨hmembers, items, items', hitems, hitems', hsame⟩
    rw [houtput, Option.some.injEq] at hitems hitems'
    subst hitems hitems'
    have hstatus := hmembers "status" (by decide)
    have husage := hmembers "usage" (by decide)
    have henergy := hmembers "energy" (by decide)
    simp only [get_finalObject, String.reduceEq, if_false, if_true, Option.some.injEq,
      Json.str.injEq] at hstatus husage henergy
    exact ⟨hstatus, Prod.ext husage henergy, hsame⟩
  · rintro ⟨rfl, husage, hsame⟩
    refine ⟨fun k hk => ?_, output, output', houtput _ _ _, houtput _ _ _, hsame⟩
    rw [get_finalObject, get_finalObject, husage]
    simp only [if_neg hk]

namespace OpenAiResponsesStreamEncoder

variable (newId : String → ℕ → String) (e : OpenAiResponsesStreamEncoder)

theorem closeText_snd : e.closeText.2.2 =
    { e with outputIndex := if e.textOpen then e.outputIndex + 1 else e.outputIndex } := by
  unfold closeText
  split <;> rfl

/-- The encoder with its reasoning, text and tool items closed. -/
def closed : OpenAiResponsesStreamEncoder := e.closeReasoning.2.closeText.2.2.takeTool

theorem closed_names :
    e.closed.responseId = e.responseId ∧ e.closed.model = e.model ∧ e.closed.status = e.status ∧
      e.closed.usage = e.usage ∧ e.closed.toolCalls = e.takeTool.toolCalls ∧
      e.closed.reasoningItem = e.closeReasoning.2.reasoningItem := by
  unfold closed
  rw [closeText_snd, closeReasoning_snd]
  exact ⟨rfl, rfl, rfl, rfl, rfl, rfl⟩

/-- The items of the closing frame. -/
def closingItems : List Json :=
  e.closeReasoning.2.reasoningItem.toList ++ e.closeReasoning.2.closeText.2.1 ++
    (toolItems newId e.closed.outputIndex e.closed.drawn e.closed.toolCalls).2

theorem completedResponses_completed (output : List Json) :
    completedResponses [e.completed output] =
      [finalObject e.responseId e.status e.model output e.usage] := by
  have hevent : (e.completed output).event = "response.completed" := rfl
  rw [completedResponses, List.filterMap_cons_some, List.filterMap_nil]
  rw [if_pos hevent, get_response_completed]

theorem completedResponses_finish :
    completedResponses (e.finish newId).1 =
      [finalObject e.responseId e.status e.model (e.closingItems newId) e.usage] := by
  have hr := e.silent_closeReasoning
  have ht := e.closeReasoning.2.silent_closeText
  obtain ⟨hid, hmodel, hstatus, husage, -, hitem⟩ := e.closed_names
  have hframes : (e.finish newId).1 =
      e.closeReasoning.1 ++ e.closeReasoning.2.closeText.1 ++
        (toolItems newId e.closed.outputIndex e.closed.drawn e.closed.toolCalls).1 ++
        [{ e.closed with
            outputIndex := e.closed.outputIndex + e.closed.toolCalls.length
            drawn := e.closed.drawn + e.closed.toolCalls.length }.completed
          (e.closed.reasoningItem.toList ++ e.closeReasoning.2.closeText.2.1 ++
            (toolItems newId e.closed.outputIndex e.closed.drawn e.closed.toolCalls).2)] := rfl
  rw [hframes, completedResponses, List.filterMap_append, List.filterMap_append,
    List.filterMap_append, ← completedResponses, ← completedResponses, ← completedResponses,
    ← completedResponses, completedResponses_eq_nil hr.frames,
    completedResponses_eq_nil ht.frames,
    completedResponses_eq_nil (toolItems_ne_completed newId _ _ _), completedResponses_completed]
  simp only [List.nil_append]
  rw [hid, hmodel, hstatus, husage, hitem, closingItems]

theorem completedResponses_encode (event : AiStreamEvent) :
    (completedResponses (e.encode newId event).1).length = if event.isEnd then 1 else 0 := by
  cases hend : event.isEnd with
  | false => rw [completedResponses_eq_nil (e.silent_encode newId hend).frames]; rfl
  | true =>
    cases event with
    | messageEnd reason => rw [encode, completedResponses_finish]; rfl
    | _ => cases hend

theorem length_completedResponses (events : List AiStreamEvent) :
    (completedResponses (e.encodeStream newId events)).length =
      events.countP AiStreamEvent.isEnd := by
  induction events generalizing e with
  | nil => rfl
  | cons event events ih =>
    rw [encodeStream, completedResponses, List.filterMap_append, ← completedResponses,
      ← completedResponses, List.length_append, ih, completedResponses_encode, List.countP_cons,
      Nat.add_comm]

theorem completedResponses_before {events : List AiStreamEvent}
    (h : ∀ event ∈ events, event.isEnd = false) (rest : List AiStreamEvent) :
    completedResponses (e.encodeStream newId (events ++ rest)) =
      completedResponses ((e.after newId events).encodeStream newId rest) := by
  induction events generalizing e with
  | nil => rfl
  | cons event events ih =>
    obtain ⟨hevent, hevents⟩ := List.forall_mem_cons.1 h
    rw [List.cons_append, encodeStream, completedResponses, List.filterMap_append,
      ← completedResponses, ← completedResponses,
      completedResponses_eq_nil (e.silent_encode newId hevent).frames, ih _ hevents]
    rfl

/-- **The streamed object**: with one end, what the events before it make of the encoder. -/
theorem completedResponses_split {before rest : List AiStreamEvent} {reason : FinishReason}
    (hbefore : ∀ event ∈ before, event.isEnd = false)
    (hrest : ∀ event ∈ rest, event.isEnd = false) :
    completedResponses (e.encodeStream newId (before ++ .messageEnd reason :: rest)) =
      [finalObject e.responseId (finishStr reason) e.model
        ({ e.after newId before with status := finishStr reason }.closingItems newId)
        (before.foldl noteUsage e.usage)] := by
  obtain ⟨hid, hmodel, -, -⟩ := e.after_names newId hbefore
  have hquiet (e : OpenAiResponsesStreamEncoder) :
      completedResponses (e.encodeStream newId rest) = [] := by
    have h := e.completedResponses_before newId hrest []
    rw [List.append_nil] at h
    rw [h]
    rfl
  rw [completedResponses_before newId e hbefore, encodeStream, completedResponses,
    List.filterMap_append, ← completedResponses, ← completedResponses, hquiet, List.append_nil,
    encode, completedResponses_finish, ← e.after_usage newId hbefore, ← hid, ← hmodel]

theorem closeText_items : e.closeText.2.1 =
    if e.textOpen then [messageItem e.itemId "completed" [outputText e.text]] else [] := by
  unfold closeText
  split <;> rfl

theorem closingItems_status (status : String) :
    { e with status := status }.closingItems newId = e.closingItems newId := by
  unfold closingItems closed
  simp only [closeText_snd, closeText_items, closeReasoning_snd]
  rfl

/-- **The items of the streamed object.** -/
theorem closingItems_after {before : List AiStreamEvent}
    (hbefore : ∀ event ∈ before, event.isEnd = false) (responseId model : String) :
    List.Forall₂ OutputItem.Renders
      (((new newId responseId model).after newId before).closingItems newId)
      ((leadReasoning before).toList.map OutputItem.reasoning ++
        ((if before.any AiStreamEvent.isText then [(texts before, [])] else []).map fun m =>
          OutputItem.message m.1 m.2) ++
        (callSegments before).map OutputItem.functionCall) := by
  obtain ⟨htext, hopen⟩ := (new newId responseId model).after_text newId hbefore
  obtain ⟨-, -, -, -, hcalls, -⟩ := ((new newId responseId model).after newId before).closed_names
  unfold closingItems
  refine List.rel_append (List.rel_append ?_ ?_) ?_
  · rw [after_reasoning newId _ hbefore]
    unfold pendingReasoning
    cases leadReasoning before with
    | none => exact .nil
    | some text =>
      have hitem : reasoningItemJson (newId "rs" 1) [summaryText ("" ++ text)] =
          (OutputItem.reasoning text).json (newId "rs" 1) := by
        rw [String.empty_append]
        rfl
      exact .cons ⟨newId "rs" 1, hitem⟩ .nil
  · rw [closeText_items, closeReasoning_snd]
    dsimp only
    rw [hopen, htext]
    cases before.any AiStreamEvent.isText with
    | false => exact .nil
    | true =>
      have hitem (id : String) : messageItem id "completed" [outputText ("" ++ texts before)] =
          (OutputItem.message (texts before) []).json id := by
        rw [String.empty_append]
        rfl
      exact .cons ⟨_, hitem _⟩ .nil
  · rw [hcalls, after_calls newId _ hbefore]
    exact toolItems_renders newId _ _ (callSegments before)

end OpenAiResponsesStreamEncoder

/-! ### When the two objects are the same -/

theorem lateReasoning_of_none {events : List AiStreamEvent} (h : leadReasoning events = none) :
    lateReasoning events = "" := by
  induction events with
  | nil => rfl
  | cons event events ih => cases event <;> simp_all [leadReasoning, lateReasoning]

theorem texts_of_not_any {events : List AiStreamEvent}
    (h : events.any AiStreamEvent.isText = false) : texts events = "" := by
  induction events with
  | nil => rfl
  | cons event events ih =>
    cases event with
    | textDelta => cases h
    | _ => exact ih h

theorem toList_leadReasoning_eq_iff (before rest : List AiStreamEvent) :
    (leadReasoning before).toList =
        (if reasonings (before ++ rest) = "" then [] else [reasonings (before ++ rest)]) ↔
      (before.any AiStreamEvent.isReasoning → reasonings before ≠ "") ∧
        lateReasoning before = "" ∧ reasonings rest = "" := by
  have hparts := leadReasoning_append_lateReasoning before
  rw [← leadReasoning_isSome, reasonings_append, ← hparts]
  cases hlead : leadReasoning before with
  | none => simp [lateReasoning_of_none hlead]
  | some text =>
    rw [Option.getD_some, String.append_assoc, Option.toList_some, Option.isSome_some]
    by_cases hrest : lateReasoning before ++ reasonings rest = ""
    · obtain ⟨hlate, hafter⟩ := String.append_eq_empty_iff.1 hrest
      simp [hlate, hafter]
    · have hne : text ≠ text ++ (lateReasoning before ++ reasonings rest) := fun h =>
        hrest (String.append_eq_left_iff.1 h.symm)
      rw [if_neg fun h => hrest (String.append_eq_empty_iff.1 h).2]
      simp only [List.cons.injEq, hne, false_and, false_iff]
      rintro ⟨-, hlate, hafter⟩
      exact hrest (by rw [hlate, hafter]; rfl)

/-- The message items agree iff all the text comes before the end and no citation annotates it. -/
theorem messages_eq_iff (before rest : List AiStreamEvent) (citations : List Json) :
    (if before.any AiStreamEvent.isText then [(texts before, ([] : List Json))] else []) =
        (if texts (before ++ rest) = "" then [] else [(texts (before ++ rest), citations)]) ↔
      (before.any AiStreamEvent.isText → texts before ≠ "" ∧ citations = []) ∧
        texts rest = "" := by
  rw [texts_append]
  cases htext : before.any AiStreamEvent.isText with
  | false => simp [texts_of_not_any htext]
  | true =>
    by_cases hrest : texts rest = ""
    · by_cases hbefore : texts before = "" <;> simp [hrest, hbefore, eq_comm]
    · have hne : texts before ≠ texts before ++ texts rest := fun h =>
        hrest (String.append_eq_left_iff.1 h.symm)
      rw [if_neg fun h => hrest (String.append_eq_empty_iff.1 h).2]
      simp [hne, hrest]

theorem finishStr_eq_completed_iff (reason : FinishReason) :
    finishStr reason = "completed" ↔ reason = .stop ∨ reason = .toolCalls := by
  cases reason <;> decide

/-- What the events and their response are like when both clients get the same object: `before`
and `rest` are the events before and after the end. -/
structure Agrees (toJsonString : Json → String) (before rest : List AiStreamEvent)
    (reason : FinishReason) (r : AiResponse) : Prop where
  /-- The message ends once, and in full. -/
  onlyEnd : ∀ event ∈ before ++ rest, event.isEnd = false
  reason : reason = .stop ∨ reason = .toolCalls
  images : imagesOf (before ++ rest) = []
  serverTools : serverToolsOf (before ++ rest) = []
  /-- Text comes before the end, not all of it empty, and no citation annotates it. -/
  text : before.any AiStreamEvent.isText → texts before ≠ "" ∧ citationsOf (before ++ rest) = []
  textRest : texts rest = ""
  /-- Reasoning comes in one stretch before the end, not all of it empty. -/
  reasoning : before.any AiStreamEvent.isReasoning → reasonings before ≠ ""
  reasoningRest : lateReasoning before = "" ∧ reasonings rest = ""
  usage : shownUsage (before.foldl noteUsage {}) = shownUsage ((before ++ rest).foldl noteUsage {})
  /-- The calls are those of the response, their fragments as the arguments print. -/
  calls : callSegments before = printedCalls toJsonString r.message.content

theorem exists_split_of_countP_eq_one {events : List AiStreamEvent}
    (h : events.countP AiStreamEvent.isEnd = 1) :
    ∃ before reason rest, events = before ++ .messageEnd reason :: rest ∧
      ∀ event ∈ before ++ rest, event.isEnd = false := by
  obtain ⟨event, hmem, hend⟩ := List.countP_pos_iff.1 (h ▸ Nat.one_pos)
  obtain ⟨before, rest, rfl⟩ := List.append_of_mem hmem
  cases event with
  | messageEnd reason =>
    refine ⟨before, reason, rest, rfl, ?_⟩
    have hzero : (before ++ rest).countP AiStreamEvent.isEnd = 0 := by
      rw [List.countP_append, List.countP_cons_of_pos hend] at h
      rw [List.countP_append]
      omega
    intro event hevent
    simpa using List.countP_eq_zero.1 hzero event hevent
  | _ => cases hend

section Objects

variable (newId newId' : String → ℕ → String) (toJsonString : Json → String)
  {fromStr : String → Except String Json} {maxBytes : Option ℕ} {events : List AiStreamEvent}
  {id model : String} {r : AiResponse}

theorem responseToOpenAiResponses_eq :
    responseToOpenAiResponses newId toJsonString r =
      finalObject r.id "completed" r.model
        ((responseItems toJsonString r).mapIdx fun n item => item.json (newId item.idKind n))
        r.usage := rfl

theorem sameFinal_iff_agrees {before rest : List AiStreamEvent} {reason : FinishReason}
    (h : collectResponse fromStr ((before ++ .messageEnd reason :: rest).map .ok) id model
      maxBytes = .ok r)
    (honly : ∀ event ∈ before ++ rest, event.isEnd = false) (output : List Json)
    (houtput : List.Forall₂ OutputItem.Renders output
      ((leadReasoning before).toList.map OutputItem.reasoning ++
        ((if before.any AiStreamEvent.isText then [(texts before, [])] else []).map fun m =>
          OutputItem.message m.1 m.2) ++
        (callSegments before).map OutputItem.functionCall)) :
    SameFinal (finalObject id (finishStr reason) model output (before.foldl noteUsage {}))
        (responseToOpenAiResponses newId' toJsonString r) ↔
      Agrees toJsonString before rest reason r := by
  obtain ⟨-, rfl⟩ := collectResponse_eq_ok h
  have hgathered := gathered_foldl {} (before ++ .messageEnd reason :: rest)
  set st := (before ++ .messageEnd reason :: rest).foldl gather {}
  have htexts : texts (before ++ .messageEnd reason :: rest) = texts (before ++ rest) := by
    simp [texts_append, texts]
  have hreasonings :
      reasonings (before ++ .messageEnd reason :: rest) = reasonings (before ++ rest) := by
    simp [reasonings_append, reasonings]
  have himages : imagesOf (before ++ .messageEnd reason :: rest) = imagesOf (before ++ rest) := by
    simp [imagesOf]
  have hcitations :
      citationsOf (before ++ .messageEnd reason :: rest) = citationsOf (before ++ rest) := by
    simp [citationsOf]
  have hserver :
      serverToolsOf (before ++ .messageEnd reason :: rest) = serverToolsOf (before ++ rest) := by
    simp [serverToolsOf]
  have husage : st.usage = (before ++ rest).foldl noteUsage {} := by
    rw [hgathered.usage]
    simp [noteUsage]
  have hitems := OutputItem.renders_mapIdx (fun n item => newId' item.idKind n)
    (responseItems toJsonString (st.response fromStr id model))
  have hplain : ∀ item ∈ (leadReasoning before).toList.map OutputItem.reasoning ++
      ((if before.any AiStreamEvent.isText then [(texts before, [])] else []).map fun m =>
        OutputItem.message m.1 m.2) ++ (callSegments before).map OutputItem.functionCall,
      item.isServerTool = false := by
    intro item hitem
    rw [List.mem_append, List.mem_append, List.mem_map, List.mem_map, List.mem_map] at hitem
    obtain (⟨_, -, rfl⟩ | ⟨_, -, rfl⟩) | ⟨_, -, rfl⟩ := hitem <;> rfl
  rw [responseToOpenAiResponses_eq]
  change SameFinal (finalObject id _ model _ _) (finalObject id _ model _ st.usage) ↔ _
  rw [sameFinal_finalObject_iff, OutputItem.forall₂_sameExcept_iff houtput hitems hplain,
    hgathered.responseItems_eq, OutputItem.append_eq_append_iff, finishStr_eq_completed_iff,
    htexts, hreasonings, himages, hcitations, hserver, husage, toList_leadReasoning_eq_iff,
    messages_eq_iff, List.map_eq_nil_iff, List.map_eq_nil_iff]
  constructor
  · rintro ⟨hreason, hshown, ⟨hr, hlate⟩, ⟨ht, htrest⟩, hcalls, himg, hsrv⟩
    exact ⟨honly, hreason, himg, hsrv, ht, htrest, hr, hlate, hshown, hcalls⟩
  · rintro ⟨-, hreason, himg, hsrv, ht, htrest, hr, hlate, hshown, hcalls⟩
    exact ⟨hreason, hshown, ⟨hr, hlate⟩, ⟨ht, htrest⟩, hcalls, himg, hsrv⟩

/-- **The same final object**: a client that streams and one that does not get the same object,
identifiers apart, iff the message ends once and the events agree about its end. -/
theorem final_object_iff (h : collectResponse fromStr (events.map .ok) id model maxBytes = .ok r) :
    (∃ response,
        completedResponses
          ((OpenAiResponsesStreamEncoder.new newId id model).encodeStream newId events) =
            [response] ∧
          SameFinal response (responseToOpenAiResponses newId' toJsonString r)) ↔
      ∃ before reason rest, events = before ++ .messageEnd reason :: rest ∧
        Agrees toJsonString before rest reason r := by
  have hsplit {before rest : List AiStreamEvent} {reason : FinishReason}
      (hevents : events = before ++ .messageEnd reason :: rest)
      (honly : ∀ event ∈ before ++ rest, event.isEnd = false) :
      completedResponses
          ((OpenAiResponsesStreamEncoder.new newId id model).encodeStream newId events) =
        [finalObject id (finishStr reason) model
          (((OpenAiResponsesStreamEncoder.new newId id model).after newId before).closingItems
            newId)
          (before.foldl noteUsage {})] := by
    obtain ⟨hbefore, hrest⟩ := List.forall_mem_append.1 honly
    rw [hevents, OpenAiResponsesStreamEncoder.completedResponses_split newId _ hbefore hrest,
      OpenAiResponsesStreamEncoder.closingItems_status]
    rfl
  constructor
  · rintro ⟨response, hcompleted, hsame⟩
    have hcount : events.countP AiStreamEvent.isEnd = 1 := by
      rw [← OpenAiResponsesStreamEncoder.length_completedResponses newId
        (OpenAiResponsesStreamEncoder.new newId id model), hcompleted]
      rfl
    obtain ⟨before, reason, rest, hevents, honly⟩ := exists_split_of_countP_eq_one hcount
    have hbefore := (List.forall_mem_append.1 honly).1
    rw [hsplit hevents honly, List.cons.injEq] at hcompleted
    rw [← hcompleted.1] at hsame
    rw [hevents] at h
    exact ⟨before, reason, rest, hevents, (sameFinal_iff_agrees newId' toJsonString h honly _
      (OpenAiResponsesStreamEncoder.closingItems_after newId hbefore id model)).1 hsame⟩
  · rintro ⟨before, reason, rest, hevents, hagrees⟩
    have hbefore := (List.forall_mem_append.1 hagrees.onlyEnd).1
    refine ⟨_, hsplit hevents hagrees.onlyEnd, ?_⟩
    rw [hevents] at h
    exact (sameFinal_iff_agrees newId' toJsonString h hagrees.onlyEnd _
      (OpenAiResponsesStreamEncoder.closingItems_after newId hbefore id model)).2 hagrees

end Objects

/-- An answer in full, with its usage: both clients get the same object. -/
theorem final_object_of_stop :
    ∃ r, collectResponse (fun _ => .error "expected value")
        ([.messageStart "msg-1" "gpt-5", .textDelta "hel", .textDelta "lo",
          .usageDelta { inputTokens := 3, outputTokens := 2 },
          .messageEnd .stop].map .ok) "resp-1" "gpt-5" none = .ok r ∧
      ∃ response,
        completedResponses
          ((OpenAiResponsesStreamEncoder.new (fun kind _ => kind) "resp-1" "gpt-5").encodeStream
            (fun kind _ => kind)
            [.messageStart "msg-1" "gpt-5", .textDelta "hel", .textDelta "lo",
              .usageDelta { inputTokens := 3, outputTokens := 2 }, .messageEnd .stop]) =
            [response] ∧
          SameFinal response
            (responseToOpenAiResponses (fun kind _ => kind) (fun _ => "null") r) := by
  have hcollect : collectResponse (fun _ => .error "expected value")
      ([.messageStart "msg-1" "gpt-5", .textDelta "hel", .textDelta "lo",
        .usageDelta { inputTokens := 3, outputTokens := 2 },
        .messageEnd .stop].map .ok) "resp-1" "gpt-5" none =
      .ok { id := "resp-1", model := "gpt-5",
            message := { role := .assistant, content := [.text "hello"] },
            finishReason := .stop, usage := { inputTokens := 3, outputTokens := 2 } } := rfl
  refine ⟨_, hcollect, (final_object_iff _ _ _ hcollect).2 ⟨[.messageStart "msg-1" "gpt-5",
    .textDelta "hel", .textDelta "lo", .usageDelta { inputTokens := 3, outputTokens := 2 }],
    .stop, [], rfl, ?_⟩⟩
  exact {
    onlyEnd := by decide
    reason := by decide
    images := rfl
    serverTools := rfl
    text := fun _ => ⟨by decide, rfl⟩
    textRest := rfl
    reasoning := by decide
    reasoningRest := ⟨rfl, rfl⟩
    usage := rfl
    calls := rfl }

/-- A message cut at its length: the stream ends `incomplete`, the whole object is `completed`. -/
theorem not_final_object_of_length :
    ∃ r, collectResponse (fun _ => .error "expected value")
        ([.messageStart "msg-1" "gpt-5", .textDelta "hel", .messageEnd .length].map .ok)
        "resp-1" "gpt-5" none = .ok r ∧
      ¬ ∃ response,
        completedResponses
          ((OpenAiResponsesStreamEncoder.new (fun kind _ => kind) "resp-1" "gpt-5").encodeStream
            (fun kind _ => kind)
            [.messageStart "msg-1" "gpt-5", .textDelta "hel", .messageEnd .length]) =
            [response] ∧
          SameFinal response
            (responseToOpenAiResponses (fun kind _ => kind) (fun _ => "null") r) := by
  refine ⟨{ id := "resp-1", model := "gpt-5",
            message := { role := .assistant, content := [.text "hel"] },
            finishReason := .length, usage := {} }, rfl, ?_⟩
  rintro ⟨response, hcompleted, hsame, -⟩
  have hbefore : ∀ event ∈ [AiStreamEvent.messageStart "msg-1" "gpt-5", .textDelta "hel"],
      event.isEnd = false := by decide
  have hresponse := List.cons.inj (hcompleted.symm.trans
    ((OpenAiResponsesStreamEncoder.new (fun kind _ => kind) "resp-1"
      "gpt-5").completedResponses_split (fun kind _ => kind) hbefore (List.forall_mem_nil _)))
  have hstatus := hsame "status" (by decide)
  rw [hresponse.1, responseToOpenAiResponses_eq, get_finalObject, get_finalObject] at hstatus
  exact absurd hstatus (by decide)

end Switchback
