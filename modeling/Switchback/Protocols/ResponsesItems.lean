import Switchback.Lib.Acceptor
import Switchback.Protocols.Responses

/-!
# The output items of a Responses stream

An output item is added under an index, other frames carry that index until the item is done, and a
done item stands at its index in the output of the completed response.
-/

namespace Switchback

namespace ResponsesItems

open Lib OpenAiResponsesStreamEncoder

/-! ### Frames about items -/

inductive Token where
  | added (index : ℕ) (id : String)
  | about (index : ℕ) (id : String)
  | done (index : ℕ) (id : String) (item : Json)
  | completed (output : List Json)

/-- The frames about an item between its first and its last. -/
def itemEvents : List String :=
  ["response.output_text.delta", "response.output_text.annotation.added",
    "response.output_text.done", "response.content_part.added", "response.content_part.done",
    "response.reasoning_summary_part.added", "response.reasoning_summary_text.delta",
    "response.reasoning_summary_text.done"]

/-- What a frame says about an item. -/
def token (frame : SseFrame) : Option Token :=
  if frame.event = "response.output_item.added" then do
    let index ← frame.data.getU64 "output_index"
    let id ← (frame.data.get "item").bind (Json.getStr "id")
    return .added index id
  else if frame.event = "response.output_item.done" then do
    let index ← frame.data.getU64 "output_index"
    let item ← frame.data.get "item"
    let id ← item.getStr "id"
    return .done index id item
  else if frame.event = "response.completed" then
    ((frame.data.get "response").bind (Json.getArray "output")).map .completed
  else if frame.event ∈ itemEvents then do
    let index ← frame.data.getU64 "output_index"
    let id ← frame.data.getStr "item_id"
    return .about index id
  else none

/-- The items so far by their index, each with its identifier and, once it is done, as it is; or
the response is completed. -/
inductive Phase where
  | items (l : List (String × Option Json))
  | closed

/-- A new item has the next index and an identifier of its own, a frame about an item finds it under
its index and not yet done, and at the end every item is done and in the output. -/
def Phase.next : Phase → Token → Option Phase
  | items l, .added index id =>
      if index = l.length ∧ id ∉ l.map Prod.fst then some (items (l ++ [(id, none)])) else none
  | items l, .about index id => if l[index]? = some (id, none) then some (items l) else none
  | items l, .done index id item =>
      if l[index]? = some (id, none) then some (items (l.set index (id, some item))) else none
  | items l, .completed output =>
      if l.map Prod.snd <+: output.map some then some closed else none
  | closed, _ => none

/-- A frame that says nothing about an item changes nothing. -/
def Phase.frame (p : Phase) (frame : SseFrame) : Option Phase :=
  (token frame).elim (some p) p.next

/-- The frames fit together, up to the completed response and beyond. -/
def Consistent (frames : List SseFrame) : Prop :=
  Acceptor.read Phase.frame (.items []) frames = some .closed

inductive Stage where
  | thinking
  | answering
  | ended

/-- Reasoning, then text with citations, then the end; an image fits nowhere. -/
def Stage.next : Stage → AiStreamEvent → Option Stage
  | _, .outputImage .. => none
  | thinking, .reasoningDelta _ => some thinking
  | thinking, .textDelta _ => some answering
  | thinking, .citation .. => none
  | answering, .textDelta _ => some answering
  | answering, .citation .. => some answering
  | answering, .reasoningDelta _ => none
  | ended, .textDelta _ | ended, .reasoningDelta _ | ended, .citation .. => none
  | thinking, .messageEnd _ | answering, .messageEnd _ => some ended
  | ended, .messageEnd _ => none
  | stage, _ => some stage

/-- The events come in that order and the message ends. -/
def InOrder (events : List AiStreamEvent) : Prop :=
  Acceptor.read Stage.next .thinking events = some .ended

/-! ### Tokens of the encoder's frames -/

section

variable (index : ℕ)

variable {id : String}

theorem token_added {item : Json} (h : item.getStr "id" = some id) :
    token (itemFrame "response.output_item.added" index item) = some (.added index id) := by
  have hget (k : String) : (Json.mkObj [("type", .str "response.output_item.added"),
      ("output_index", Json.ofNat index), ("item", item)]).get k =
        OrdMap.getList k [("type", .str "response.output_item.added"),
          ("output_index", Json.ofNat index), ("item", item)] := Json.get_mkObj (by simp) k
  unfold token itemFrame frame
  rw [if_pos rfl]
  unfold Json.getU64
  dsimp only
  rw [hget, hget]
  show (Json.getStr "id" item).bind (fun id => some (Token.added index id)) = _
  rw [h]
  rfl

theorem token_done {item : Json} (h : item.getStr "id" = some id) :
    token (itemFrame "response.output_item.done" index item) = some (.done index id item) := by
  have hget (k : String) : (Json.mkObj [("type", .str "response.output_item.done"),
      ("output_index", Json.ofNat index), ("item", item)]).get k =
        OrdMap.getList k [("type", .str "response.output_item.done"),
          ("output_index", Json.ofNat index), ("item", item)] := Json.get_mkObj (by simp) k
  unfold token itemFrame frame
  dsimp only
  rw [if_neg (by decide), if_pos rfl]
  unfold Json.getU64
  rw [hget, hget]
  show (Json.getStr "id" item).bind (fun id => some (Token.done index id item)) = _
  rw [h]
  rfl

/-- A frame that names an item and its index. -/
theorem token_about {event : String} {fields : List (String × Json)} (hevent : event ∈ itemEvents)
    (hnodup : (("type" :: "item_id" :: "output_index" :: fields.map Prod.fst)).Nodup) :
    token (frame event (("item_id", .str id) :: ("output_index", Json.ofNat index) :: fields)) =
      some (.about index id) := by
  have hget (k : String) : (Json.mkObj (("type", .str event) :: ("item_id", .str id) ::
      ("output_index", Json.ofNat index) :: fields)).get k =
        OrdMap.getList k (("type", .str event) :: ("item_id", .str id) ::
          ("output_index", Json.ofNat index) :: fields) := Json.get_mkObj (by simpa using hnodup) k
  have hne (name : String) (hname : name ∉ itemEvents) : event ≠ name :=
    fun heq => hname (heq ▸ hevent)
  unfold token frame
  dsimp only
  rw [if_neg (hne _ (by decide)), if_neg (hne _ (by decide)), if_neg (hne _ (by decide)),
    if_pos hevent]
  unfold Json.getU64 Json.getStr
  rw [hget, hget]
  rfl

theorem token_completed (e : OpenAiResponsesStreamEncoder) (output : List Json) :
    token (e.completed output) = some (.completed output) := by
  have houtput : (Json.mkObj ([("id", .str e.responseId), ("object", .str "response"),
      ("status", .str e.status), ("model", .str e.model), ("output", .arr output),
      ("usage", responsesUsageJson e.usage)] ++
        (e.usage.energy.map fun energy => ("energy", energyUsageJson energy)).toList)).get
          "output" = some (.arr output) := by
    cases e.usage.energy with
    | none => exact Json.get_mkObj (by simp) _
    | some energy => exact Json.get_mkObj (by simp) _
  unfold token completed frame
  dsimp only
  rw [if_neg (by decide), if_neg (by decide), if_pos rfl, Json.get_mkObj (by simp)]
  show ((Json.get "output" _).bind Json.asArray).map Token.completed = _
  rw [houtput]
  rfl

theorem serverTool_ne (name status : String) {s : String}
    (h : ¬ "_call.".toList <:+: s.toList) : s!"response.{name}_call.{status}" ≠ s := by
  intro heq
  refine h (heq ▸ ⟨("response." ++ name).toList, status.toList, ?_⟩)
  show _ = ((("response." ++ name) ++ "_call.") ++ status).toList
  simp only [String.toList_append]

theorem token_serverTool (name status : String) (fields : List (String × Json)) :
    token (frame s!"response.{name}_call.{status}" fields) = none := by
  have hitem : s!"response.{name}_call.{status}" ∉ itemEvents := by
    intro hmem
    have hcall : ∀ s ∈ itemEvents, ¬ "_call.".toList <:+: s.toList := by decide +kernel
    exact serverTool_ne name status (hcall _ hmem) rfl
  unfold token frame
  dsimp only
  rw [if_neg (serverTool_ne name status (by decide +kernel)),
    if_neg (serverTool_ne name status (by decide +kernel)),
    if_neg (serverTool_ne name status (by decide +kernel)), if_neg hitem]

end

variable {f : SseFrame} {t : Token} {p : Phase}

theorem frame_of_token (h : token f = some t) : p.frame f = p.next t := by
  unfold Phase.frame
  rw [h, Option.elim_some]

theorem frame_of_none (h : token f = none) : p.frame f = some p := by
  unfold Phase.frame
  rw [h, Option.elim_none]

/-- A first frame about an item, and the rest. -/
theorem read_cons_token (h : token f = some t) (frames : List SseFrame) :
    Acceptor.read Phase.frame p (f :: frames) =
      (p.next t).bind fun p' => Acceptor.read Phase.frame p' frames := by
  rw [Acceptor.read_cons, frame_of_token h]

theorem read_closed (h : token f = some t) (frames : List SseFrame) :
    Acceptor.read Phase.frame .closed (f :: frames) = none := by
  rw [read_cons_token h]
  rfl

theorem next_about {l : List (String × Option Json)} {index : ℕ} {id : String}
    (h : l[index]? = some (id, none)) : (Phase.items l).next (.about index id) = some (.items l) :=
  if_pos h

def isImage (item : Json) : Prop := item.getStr "type" = some "image_generation_call"

/-- An image item is done. -/
def Doomed : Phase → Prop
  | .items l => ∃ id item, (id, some item) ∈ l ∧ isImage item
  | .closed => False

/-- A completed response without images. -/
def NoImages (frame : SseFrame) : Prop :=
  ∀ output, token frame = some (.completed output) → ∀ item ∈ output, ¬ isImage item

theorem Doomed.frame {p' : Phase} (h : Doomed p) (hf : NoImages f)
    (hnext : p.frame f = some p') : Doomed p' := by
  cases htoken : token f with
  | none =>
    rw [frame_of_none htoken] at hnext
    cases hnext
    exact h
  | some t =>
    rw [frame_of_token htoken] at hnext
    cases p with
    | closed => exact absurd h id
    | items l =>
      obtain ⟨id, item, hmem, himage⟩ := h
      cases t with
      | added index id' =>
        by_cases hc : index = l.length ∧ id' ∉ l.map Prod.fst
        · cases (if_pos hc).symm.trans hnext
          exact ⟨id, item, List.mem_append_left _ hmem, himage⟩
        · cases (if_neg hc).symm.trans hnext
      | about index id' =>
        by_cases hc : l[index]? = some (id', none)
        · cases (if_pos hc).symm.trans hnext
          exact ⟨id, item, hmem, himage⟩
        · cases (if_neg hc).symm.trans hnext
      | done index id' item' =>
        by_cases hc : l[index]? = some (id', none)
        · cases (if_pos hc).symm.trans hnext
          -- the image is at another index, whose entry stays
          refine ⟨id, item, ?_, himage⟩
          obtain ⟨i, hi⟩ := List.mem_iff_getElem?.mp hmem
          refine List.mem_iff_getElem?.mpr ⟨i, ?_⟩
          rw [List.getElem?_set_ne, hi]
          rintro rfl
          rw [hi] at hc
          cases hc
        · cases (if_neg hc).symm.trans hnext
      | completed output =>
        by_cases hc : l.map Prod.snd <+: output.map some
        · have hout : some item ∈ output.map some :=
            hc.subset (List.mem_map.mpr ⟨_, hmem, rfl⟩)
          obtain ⟨item', hitem', heq⟩ := List.mem_map.mp hout
          cases heq
          exact absurd himage (hf output htoken item hitem')
        · cases (if_neg hc).symm.trans hnext

theorem Doomed.not_closed (h : Doomed p) {frames : List SseFrame}
    (hframes : ∀ f ∈ frames, NoImages f) :
    Acceptor.read Phase.frame p frames ≠ some .closed := fun hread =>
  Acceptor.read_inv (fun _ _ _ => Doomed.frame) h hframes hread

/-! ### Where the encoder stands -/

variable {newId : String → ℕ → String}

/-- The identifiers of the two items that are opened piece by piece. -/
structure Ids (newId : String → ℕ → String) (e : OpenAiResponsesStreamEncoder) : Prop where
  item : e.itemId = newId "msg" 0
  reasoning : e.reasoningId = newId "rs" 1
  drawn : 2 ≤ e.drawn
  typed : ∀ item, e.reasoningItem = some item → ¬ isImage item

/-- The items before the message: none, or the reasoning item, which is done. -/
def Thought (e : OpenAiResponsesStreamEncoder) (l : List (String × Option Json)) : Prop :=
  (e.reasoningOpen = false ∧ e.reasoningItem = none ∧ e.outputIndex = 0 ∧ l = []) ∨
    ∃ item, e.reasoningItem = some item ∧ e.outputIndex = 1 ∧ l = [(e.reasoningId, some item)]

/-- The items at a stage: the reasoning item alone, open under index `0`, or what came before the
message and the open message. -/
def At (e : OpenAiResponsesStreamEncoder) : Stage → Phase → Prop
  | .thinking, .items l =>
      e.textOpen = false ∧ e.outputIndex = 0 ∧ e.reasoningItem = none ∧
        l = if e.reasoningOpen then [(e.reasoningId, none)] else []
  | .answering, .items l =>
      e.textOpen = true ∧ ∃ before, Thought e before ∧ l = before ++ [(e.itemId, none)]
  | .ended, .closed => True
  | _, _ => False

section

variable {e : OpenAiResponsesStreamEncoder} {l : List (String × Option Json)}

theorem Thought.length (h : Thought e l) : l.length = e.outputIndex := by
  rcases h with ⟨-, -, hindex, rfl⟩ | ⟨item, -, hindex, rfl⟩
  · exact hindex.symm
  · exact hindex.symm

theorem Thought.settled (h : Thought e l) :
    l.map Prod.snd = e.reasoningItem.toList.map some := by
  rcases h with ⟨-, hitem, -, rfl⟩ | ⟨item, hitem, -, rfl⟩
  · rw [hitem]
    rfl
  · rw [hitem]
    rfl

theorem Thought.ids (h : Thought e l) : ∀ id ∈ l.map Prod.fst, id = e.reasoningId := by
  rcases h with ⟨-, -, -, rfl⟩ | ⟨item, -, -, rfl⟩
  · exact fun id hid => absurd hid List.not_mem_nil
  · exact fun id hid => List.mem_singleton.mp hid

/-- What is already closed is not closed again. -/
theorem Thought.closeReasoning (h : Thought e l) : e.closeReasoning = ([], e) := by
  unfold OpenAiResponsesStreamEncoder.closeReasoning
  rcases h with ⟨hopen, -, -, -⟩ | ⟨item, hitem, -, -⟩
  · rw [hopen]
    rfl
  · rw [hitem, Option.isSome_some, Bool.or_true]
    rfl

variable (id : String) {item : Json} {stage : Stage} {p : Phase}

theorem id_reasoningItem (summary : List Json) :
    (reasoningItemJson id summary).getStr "id" = some id := by
  unfold reasoningItemJson Json.getStr
  rw [Json.get_mkObj (by simp)]
  rfl

theorem id_messageItem (id status : String) (content : List Json) :
    (messageItem id status content).getStr "id" = some id := by
  unfold messageItem Json.getStr
  rw [Json.get_mkObj (by simp)]
  rfl

theorem id_functionCallItem (call : OutputCall) :
    (functionCallItem id call).getStr "id" = some id := by
  unfold functionCallItem Json.getStr
  rw [Json.get_mkObj (by simp)]
  rfl

theorem not_isImage_of_type (type : String) (h : item.getStr "type" = some type)
    (hne : type ≠ "image_generation_call") : ¬ isImage item := by
  intro himage
  exact hne (Option.some.inj (h.symm.trans himage))

theorem not_isImage_reasoningItem (summary : List Json) :
    ¬ isImage (reasoningItemJson id summary) := by
  refine not_isImage_of_type "reasoning" ?_ (by decide)
  unfold reasoningItemJson Json.getStr
  rw [Json.get_mkObj (by simp)]
  rfl

theorem not_isImage_messageItem (id status : String) (content : List Json) :
    ¬ isImage (messageItem id status content) := by
  refine not_isImage_of_type "message" ?_ (by decide)
  unfold messageItem Json.getStr
  rw [Json.get_mkObj (by simp)]
  rfl

theorem not_isImage_functionCallItem (call : OutputCall) :
    ¬ isImage (functionCallItem id call) := by
  refine not_isImage_of_type "function_call" ?_ (by decide)
  unfold functionCallItem Json.getStr
  rw [Json.get_mkObj (by simp)]
  rfl

theorem closeReasoning_thinking (h : At e .thinking (.items l)) :
    ∃ before, Acceptor.read Phase.frame (.items l) e.closeReasoning.1 = some (.items before) ∧
      Thought e.closeReasoning.2 before ∧ e.closeReasoning.2.textOpen = false ∧
      e.closeReasoning.2.itemId = e.itemId ∧ e.closeReasoning.2.reasoningId = e.reasoningId := by
  obtain ⟨htext, hindex, hitem, hl⟩ := h
  unfold OpenAiResponsesStreamEncoder.closeReasoning
  by_cases hopen : e.reasoningOpen = true
  · rw [if_pos hopen] at hl
    subst hl
    rw [hopen, hitem, if_neg (by decide)]
    refine ⟨[(e.reasoningId, some _)], ?_, .inr ⟨_, rfl, ?_, rfl⟩, htext, rfl, rfl⟩
    · rw [read_cons_token (token_about _ (by decide) (by simp)), hindex,
        next_about (by rfl), Option.bind_some,
        read_cons_token (token_done _ (id_reasoningItem _ _))]
      rw [Phase.next, if_pos (by rfl)]
      rfl
    · show e.outputIndex + 1 = 1
      rw [hindex]
  · have hopen : e.reasoningOpen = false := by simpa using hopen
    rw [hopen, if_neg Bool.false_ne_true] at hl
    subst hl
    rw [hopen, if_pos (by rfl)]
    exact ⟨[], rfl, .inl ⟨hopen, hitem, hindex, rfl⟩, htext, rfl, rfl⟩

/-! ### What every event keeps -/

theorem Ids.start (h : Ids newId e) (status : String) : Ids newId { e with status := status } :=
  ⟨h.item, h.reasoning, h.drawn, h.typed⟩

theorem Ids.closeReasoning (h : Ids newId e) : Ids newId e.closeReasoning.2 := by
  unfold OpenAiResponsesStreamEncoder.closeReasoning
  split
  · exact h
  · refine ⟨h.item, h.reasoning, h.drawn, ?_⟩
    rintro item hitem
    cases hitem
    exact not_isImage_reasoningItem _ _

theorem Ids.takeTool (h : Ids newId e) : Ids newId e.takeTool :=
  ⟨h.item, h.reasoning, h.drawn, h.typed⟩

theorem Ids.closeText (h : Ids newId e) : Ids newId e.closeText.2.2 := by
  unfold OpenAiResponsesStreamEncoder.closeText
  split
  · exact ⟨h.item, h.reasoning, h.drawn, h.typed⟩
  · exact h

theorem Ids.openText (h : Ids newId e) : Ids newId e.openText.2 := by
  unfold OpenAiResponsesStreamEncoder.openText
  split
  · exact h
  · exact ⟨h.item, h.reasoning, h.drawn, h.typed⟩

theorem Ids.openReasoning (h : Ids newId e) : Ids newId e.openReasoning.2 := by
  unfold OpenAiResponsesStreamEncoder.openReasoning
  split
  · exact h
  · exact ⟨h.item, h.reasoning, h.drawn, h.typed⟩

theorem Ids.encode (h : Ids newId e) (event : AiStreamEvent) :
    Ids newId (e.encode newId event).2 := by
  cases event with
  | outputImage mediaType data =>
    have hc := h.closeReasoning
    exact ⟨hc.item, hc.reasoning, Nat.le_succ_of_le hc.drawn, hc.typed⟩
  | textDelta text =>
    have hc := h.closeReasoning.openText
    exact ⟨hc.item, hc.reasoning, hc.drawn, hc.typed⟩
  | reasoningDelta text =>
    have hc := h.openReasoning
    exact ⟨hc.item, hc.reasoning, hc.drawn, hc.typed⟩
  | messageEnd reason =>
    have hc := (h.start (finishStr reason)).closeReasoning.closeText.takeTool
    exact ⟨hc.item, hc.reasoning, Nat.le_add_right_of_le hc.drawn, hc.typed⟩
  | toolCallStart start => exact ⟨h.item, h.reasoning, h.drawn, h.typed⟩
  | toolCallArgsDelta index json => exact ⟨h.item, h.reasoning, h.drawn, h.typed⟩
  | toolCallEnd index => exact h.takeTool
  | usageDelta usage => exact ⟨h.item, h.reasoning, h.drawn, h.typed⟩
  | error message errorClass => exact ⟨h.item, h.reasoning, h.drawn, h.typed⟩
  | messageStart id model => exact h
  | serverToolCall id name status => exact h
  | citation url title => exact h

theorem noImages_of_event {f : SseFrame} (h : f.event ≠ "response.completed") : NoImages f := by
  intro output htoken
  unfold token at htoken
  split at htoken
  · obtain ⟨index, -, htoken⟩ := Option.bind_eq_some_iff.mp htoken
    obtain ⟨id, -, htoken⟩ := Option.bind_eq_some_iff.mp htoken
    cases htoken
  · split at htoken
    · obtain ⟨index, -, htoken⟩ := Option.bind_eq_some_iff.mp htoken
      obtain ⟨item, -, htoken⟩ := Option.bind_eq_some_iff.mp htoken
      obtain ⟨id, -, htoken⟩ := Option.bind_eq_some_iff.mp htoken
      cases htoken
    · split at htoken
      · obtain ⟨index, -, htoken⟩ := Option.bind_eq_some_iff.mp htoken
        obtain ⟨id, -, htoken⟩ := Option.bind_eq_some_iff.mp htoken
        cases htoken
      · cases htoken

/-- None of the frames completes the response. -/
def Underway (frames : List SseFrame) : Prop := ∀ f ∈ frames, f.event ≠ "response.completed"

theorem Underway.append {l₁ l₂ : List SseFrame} (h₁ : Underway l₁) (h₂ : Underway l₂) :
    Underway (l₁ ++ l₂) := by
  intro f hf
  rcases List.mem_append.mp hf with hf | hf
  · exact h₁ f hf
  · exact h₂ f hf

theorem Underway.cons {event : String} {fields : List (String × Json)} {frames : List SseFrame}
    (hevent : event ≠ "response.completed") (h : Underway frames) :
    Underway (frame event fields :: frames) := List.forall_mem_cons.mpr ⟨hevent, h⟩

theorem Underway.nil : Underway [] := fun _ hf => absurd hf List.not_mem_nil

theorem underway_closeReasoning (e : OpenAiResponsesStreamEncoder) :
    Underway e.closeReasoning.1 := by
  unfold OpenAiResponsesStreamEncoder.closeReasoning
  split
  · exact .nil
  · exact .cons (by decide) (.cons (by decide) .nil)

theorem underway_openText (e : OpenAiResponsesStreamEncoder) : Underway e.openText.1 := by
  unfold OpenAiResponsesStreamEncoder.openText
  split
  · exact .nil
  · exact .cons (by decide) (.cons (by decide) .nil)

theorem underway_openReasoning (e : OpenAiResponsesStreamEncoder) :
    Underway e.openReasoning.1 := by
  unfold OpenAiResponsesStreamEncoder.openReasoning
  split
  · exact .nil
  · exact .cons (by decide) (.cons (by decide) .nil)

theorem underway_closeText (e : OpenAiResponsesStreamEncoder) : Underway e.closeText.1 := by
  unfold OpenAiResponsesStreamEncoder.closeText
  split
  · exact .cons (by decide) (.cons (by decide) (.cons (by decide) .nil))
  · exact .nil

theorem underway_toolItems (n d : ℕ) (calls : List OutputCall) :
    Underway (toolItems newId n d calls).1 := by
  induction calls generalizing n d with
  | nil => exact .nil
  | cons call calls ih => exact .cons (by decide) (.cons (by decide) (ih (n + 1) (d + 1)))

theorem not_isImage_toolItems (n d : ℕ) (calls : List OutputCall) :
    ∀ item ∈ (toolItems newId n d calls).2, ¬ isImage item := by
  induction calls generalizing n d with
  | nil => exact fun item hitem => absurd hitem List.not_mem_nil
  | cons call calls ih =>
    exact List.forall_mem_cons.mpr ⟨not_isImage_functionCallItem _ _, ih (n + 1) (d + 1)⟩

theorem not_isImage_closeText (e : OpenAiResponsesStreamEncoder) :
    ∀ item ∈ e.closeText.2.1, ¬ isImage item := by
  unfold OpenAiResponsesStreamEncoder.closeText
  split
  · intro item hitem
    rw [List.mem_singleton.mp hitem]
    exact not_isImage_messageItem _ _ _
  · exact fun item hitem => absurd hitem List.not_mem_nil

theorem noImages_encode (h : Ids newId e) (event : AiStreamEvent) :
    ∀ f ∈ (e.encode newId event).1, NoImages f := by
  have hunderway {frames : List SseFrame} (hframes : Underway frames) :
      ∀ f ∈ frames, NoImages f := fun f hf => noImages_of_event (hframes f hf)
  cases event with
  | outputImage mediaType data =>
    exact hunderway ((underway_closeReasoning e).append
      (.cons (by decide) (.cons (by decide) .nil)))
  | textDelta text =>
    exact hunderway (((underway_closeReasoning e).append (underway_openText _)).append
      (.cons (by decide) .nil))
  | reasoningDelta text =>
    exact hunderway ((underway_openReasoning e).append (.cons (by decide) .nil))
  | citation url title => exact hunderway (.cons (by decide) .nil)
  | serverToolCall id name status =>
    exact hunderway (.cons (serverTool_ne name status (by decide +kernel)) .nil)
  | messageStart id model => exact hunderway (.cons (by decide) .nil)
  | error message errorClass => exact hunderway (.cons (by decide) .nil)
  | toolCallStart start => exact hunderway .nil
  | toolCallArgsDelta index json => exact hunderway .nil
  | toolCallEnd index => exact hunderway .nil
  | usageDelta usage => exact hunderway .nil
  | messageEnd reason =>
    have hstart := h.start (finishStr reason)
    intro f hf
    rcases List.mem_append.mp hf with hf | hf
    · exact hunderway (((underway_closeReasoning _).append (underway_closeText _)).append
        (underway_toolItems _ _ _)) f hf
    · rw [List.mem_singleton.mp hf]
      intro output htoken item hitem
      rw [token_completed] at htoken
      cases htoken
      rcases List.mem_append.mp hitem with hitem | hitem
      · rcases List.mem_append.mp hitem with hitem | hitem
        · exact hstart.closeReasoning.closeText.typed item (Option.mem_toList.mp hitem)
        · exact not_isImage_closeText _ item hitem
      · exact not_isImage_toolItems _ _ _ item hitem

/-! ### Reading one event -/

theorem read_whole {id : String} {n : ℕ} (hid : item.getStr "id" = some id)
    (hlength : l.length = n) (hnew : id ∉ l.map Prod.fst) (frames : List SseFrame) :
    Acceptor.read Phase.frame (.items l) (itemFrame "response.output_item.added" n item ::
        itemFrame "response.output_item.done" n item :: frames) =
      Acceptor.read Phase.frame (.items (l ++ [(id, some item)])) frames := by
  subst hlength
  have hadded : (Phase.items l).next (.added l.length id) = some (.items (l ++ [(id, none)])) :=
    if_pos ⟨rfl, hnew⟩
  have hdone : (Phase.items (l ++ [(id, none)])).next (.done l.length id item) =
      some (.items (l ++ [(id, some item)])) := by
    rw [Phase.next, if_pos List.getElem?_concat_length, List.set_append_right _ _ le_rfl,
      Nat.sub_self]
    rfl
  rw [read_cons_token (token_added _ hid), hadded, Option.bind_some,
    read_cons_token (token_done _ hid), hdone, Option.bind_some]

theorem read_toolItems (hinj : ∀ k k' i j, newId k i = newId k' j → i = j) (calls : List OutputCall)
    {n d : ℕ} (hlength : l.length = n)
    (hids : ∀ id ∈ l.map Prod.fst, ∃ k i, i < d ∧ id = newId k i) :
    ∃ l', Acceptor.read Phase.frame (.items l) (toolItems newId n d calls).1 = some (.items l') ∧
      l'.map Prod.snd = l.map Prod.snd ++ (toolItems newId n d calls).2.map some := by
  induction calls generalizing n d l with
  | nil => exact ⟨l, rfl, (List.append_nil _).symm⟩
  | cons call calls ih =>
    have hnew : newId "fc" d ∉ l.map Prod.fst := by
      intro hmem
      obtain ⟨k, i, hi, heq⟩ := hids _ hmem
      exact hi.ne (hinj _ _ _ _ heq).symm
    have hlength' : (l ++ [(newId "fc" d, some (functionCallItem (newId "fc" d) call))]).length =
        n + 1 := by
      rw [List.length_append, hlength]
      rfl
    have hids' : ∀ id ∈ (l ++ [(newId "fc" d,
        some (functionCallItem (newId "fc" d) call))]).map Prod.fst,
          ∃ k i, i < d + 1 ∧ id = newId k i := by
      intro id hid
      rw [List.map_append] at hid
      rcases List.mem_append.mp hid with hid | hid
      · obtain ⟨k, i, hi, heq⟩ := hids id hid
        exact ⟨k, i, Nat.lt_succ_of_lt hi, heq⟩
      · exact ⟨"fc", d, Nat.lt_succ_self d, List.mem_singleton.mp hid⟩
    obtain ⟨l', hread, hitems⟩ := ih hlength' hids'
    refine ⟨l', ?_, ?_⟩
    · rw [← hread]
      exact read_whole (id_functionCallItem _ _) hlength hnew _
    · rw [hitems, List.map_append, List.append_assoc]
      rfl

/-- The items before the message, and the message while it is open. -/
def withMessage (e : OpenAiResponsesStreamEncoder) (before : List (String × Option Json)) :
    List (String × Option Json) :=
  before ++ if e.textOpen then [(e.itemId, none)] else []

theorem read_closeText (h : Thought e l) :
    Acceptor.read Phase.frame (.items (withMessage e l)) e.closeText.1 =
      some (.items (l ++ e.closeText.2.1.map fun item => (e.itemId, some item))) ∧
    (l ++ e.closeText.2.1.map fun item => (e.itemId, some item)).length =
      e.closeText.2.2.outputIndex := by
  unfold withMessage OpenAiResponsesStreamEncoder.closeText
  split
  · rw [← h.length]
    have hopen : (l ++ [(e.itemId, (none : Option Json))])[l.length]? = some (e.itemId, none) :=
      List.getElem?_concat_length
    refine ⟨?_, List.length_append⟩
    rw [read_cons_token (token_about _ (by decide) (by simp)), next_about hopen, Option.bind_some,
      read_cons_token (token_about _ (by decide) (by simp)), next_about hopen, Option.bind_some,
      read_cons_token (token_done _ (id_messageItem _ _ _)), Phase.next, if_pos hopen,
      List.set_append_right _ _ le_rfl, Nat.sub_self]
    rfl
  · rw [List.append_nil]
    refine ⟨?_, ?_⟩
    · rw [List.map_nil, List.append_nil]
      rfl
    · rw [List.map_nil, List.append_nil]
      exact h.length

theorem read_openText (h : Thought e l) (hne : e.itemId ≠ e.reasoningId) :
    Acceptor.read Phase.frame (.items (withMessage e l)) e.openText.1 =
      some (.items (l ++ [(e.itemId, none)])) := by
  unfold withMessage OpenAiResponsesStreamEncoder.openText
  split
  · rfl
  · have hnew : e.itemId ∉ l.map Prod.fst := fun hmem => hne (h.ids _ hmem)
    rw [List.append_nil, read_cons_token (token_added _ (id_messageItem _ _ _)), Phase.next,
      if_pos ⟨h.length.symm, hnew⟩, Option.bind_some,
      read_cons_token (token_about _ (by decide) (by simp)), ← h.length,
      next_about List.getElem?_concat_length]
    rfl

theorem openText_spec (h : Thought e l) :
    e.openText.2.itemId = e.itemId ∧ e.openText.2.outputIndex = e.outputIndex ∧
      e.openText.2.textOpen = true ∧ Thought e.openText.2 l := by
  unfold OpenAiResponsesStreamEncoder.openText
  split
  · rename_i hopen
    exact ⟨rfl, rfl, hopen, h⟩
  · exact ⟨rfl, rfl, rfl, h⟩

theorem read_openReasoning (h : At e .thinking (.items l)) :
    Acceptor.read Phase.frame (.items l) e.openReasoning.1 =
      some (.items [(e.reasoningId, none)]) ∧
    e.openReasoning.2.reasoningOpen = true ∧ e.openReasoning.2.reasoningId = e.reasoningId ∧
      e.openReasoning.2.outputIndex = 0 ∧
      At e.openReasoning.2 .thinking (.items [(e.reasoningId, none)]) := by
  obtain ⟨htext, hindex, hitem, hl⟩ := h
  unfold openReasoning
  by_cases hopen : e.reasoningOpen = true
  · rw [if_pos hopen] at hl ⊢
    subst hl
    exact ⟨rfl, hopen, rfl, hindex, htext, hindex, hitem, by rw [if_pos hopen]⟩
  · rw [if_neg hopen] at hl ⊢
    subst hl
    refine ⟨?_, rfl, rfl, hindex, htext, hindex, hitem, by rw [if_pos rfl]⟩
    dsimp only
    rw [read_cons_token (token_added _ (id_reasoningItem _ _)), hindex, Phase.next,
      if_pos ⟨rfl, List.not_mem_nil⟩, Option.bind_some,
      read_cons_token (token_about _ (by decide) (by simp)), next_about (by rfl)]
    rfl

/-- Reasoning is closed, whether the message is open or still to come. -/
theorem At.closeReasoning (h : At e stage (.items l)) :
    ∃ before, Acceptor.read Phase.frame (.items l) e.closeReasoning.1 =
        some (.items (withMessage e.closeReasoning.2 before)) ∧
      Thought e.closeReasoning.2 before ∧
      e.closeReasoning.2.itemId = e.itemId ∧ e.closeReasoning.2.reasoningId = e.reasoningId := by
  cases stage with
  | thinking =>
    obtain ⟨before, hread, hthought, htext, hitem, hreasoning⟩ := closeReasoning_thinking h
    refine ⟨before, ?_, hthought, hitem, hreasoning⟩
    rw [hread, withMessage, htext, if_neg Bool.false_ne_true, List.append_nil]
  | answering =>
    obtain ⟨htext, before, hthought, rfl⟩ := h
    refine ⟨before, ?_⟩
    rw [hthought.closeReasoning]
    refine ⟨?_, hthought, rfl, rfl⟩
    rw [withMessage, if_pos htext]
    rfl
  | ended => exact absurd h id

theorem id_imageItem (id data mediaType : String) :
    (Json.mkObj [("type", .str "image_generation_call"), ("id", .str id),
      ("status", .str "completed"), ("result", .str data),
      ("output_format", .str mediaType)]).getStr "id" = some id := by
  unfold Json.getStr
  rw [Json.get_mkObj (by simp)]
  rfl

theorem isImage_imageItem (id data mediaType : String) :
    isImage (Json.mkObj [("type", .str "image_generation_call"), ("id", .str id),
      ("status", .str "completed"), ("result", .str data),
      ("output_format", .str mediaType)]) := by
  unfold isImage Json.getStr
  rw [Json.get_mkObj (by simp)]
  rfl

theorem doomed_of_image {p' : Phase} {index : ℕ} {id : String}
    (hid : item.getStr "id" = some id) (himage : isImage item)
    (hread : Acceptor.read Phase.frame p [itemFrame "response.output_item.added" index item,
      itemFrame "response.output_item.done" index item] = some p') : Doomed p' := by
  rw [read_cons_token (token_added _ hid)] at hread
  obtain ⟨q, -, hread⟩ := Option.bind_eq_some_iff.mp hread
  rw [read_cons_token (token_done _ hid)] at hread
  obtain ⟨r, hr, hread⟩ := Option.bind_eq_some_iff.mp hread
  cases hread
  cases q with
  | closed => cases hr
  | items l =>
    by_cases hc : l[index]? = some (id, none)
    · cases (if_pos hc).symm.trans hr
      obtain ⟨hlt, -⟩ := List.getElem?_eq_some_iff.mp hc
      exact ⟨id, item, List.mem_iff_getElem?.mpr ⟨index, List.getElem?_set_self hlt⟩, himage⟩
    · cases (if_neg hc).symm.trans hr

/-- What is not about items or their identifiers. -/
theorem At.update (h : At e stage p) (status : String) (usage : Usage)
    (toolCalls : List OutputCall) (curTool : Option OutputCall) :
    At { e with status := status, usage := usage, toolCalls := toolCalls, curTool := curTool }
      stage p := by
  cases stage with
  | thinking => cases p with
    | items l => exact h
    | closed => exact h
  | answering => cases p with
    | items l => exact h
    | closed => exact h
  | ended => cases p with
    | items l => exact h
    | closed => exact h

theorem finish_frames (newId : String → ℕ → String) (e : OpenAiResponsesStreamEncoder) :
    ∃ e', (finish newId e).1 =
      e.closeReasoning.1 ++ e.closeReasoning.2.closeText.1 ++
        (toolItems newId e.closeReasoning.2.closeText.2.2.outputIndex
          e.closeReasoning.2.closeText.2.2.drawn
          e.closeReasoning.2.closeText.2.2.takeTool.toolCalls).1 ++
        [completed e' (e.closeReasoning.2.closeText.2.2.reasoningItem.toList ++
          e.closeReasoning.2.closeText.2.1 ++
          (toolItems newId e.closeReasoning.2.closeText.2.2.outputIndex
            e.closeReasoning.2.closeText.2.2.drawn
            e.closeReasoning.2.closeText.2.2.takeTool.toolCalls).2)] := ⟨_, rfl⟩

/-- The end of the message closes the items that are open and completes the response with all of
them. -/
theorem read_finish (hinj : ∀ k k' i j, newId k i = newId k' j → i = j)
    (hids : Ids newId e) (h : At e stage (.items l)) :
    Acceptor.read Phase.frame (.items l) (finish newId e).1 = some .closed := by
  obtain ⟨before, hread, hthought, hitem, hreasoning⟩ := h.closeReasoning
  obtain ⟨htext, hlength⟩ := read_closeText hthought
  have hclosed := hids.closeReasoning
  -- the identifiers so far were drawn before those of the tool calls
  have hdrawn : ∀ id ∈ (before ++ e.closeReasoning.2.closeText.2.1.map
      fun item => (e.closeReasoning.2.itemId, some item)).map Prod.fst,
        ∃ k i, i < e.closeReasoning.2.closeText.2.2.drawn ∧ id = newId k i := by
    intro id hid
    have hlt := hclosed.closeText.drawn
    rw [List.map_append, List.map_map] at hid
    rcases List.mem_append.mp hid with hid | hid
    · exact ⟨"rs", 1, hlt, (hthought.ids id hid).trans hclosed.reasoning⟩
    · obtain ⟨item, -, rfl⟩ := List.mem_map.mp hid
      exact ⟨"msg", 0, (Nat.zero_lt_two).trans_le hlt, hclosed.item⟩
  obtain ⟨l', htools, hitems⟩ := read_toolItems hinj
    e.closeReasoning.2.closeText.2.2.takeTool.toolCalls hlength hdrawn
  have hreasoningItem : e.closeReasoning.2.closeText.2.2.reasoningItem =
      e.closeReasoning.2.reasoningItem := by
    unfold OpenAiResponsesStreamEncoder.closeText
    split
    · rfl
    · rfl
  have houtput : l'.map Prod.snd =
      (e.closeReasoning.2.closeText.2.2.reasoningItem.toList ++ e.closeReasoning.2.closeText.2.1 ++
        (toolItems newId e.closeReasoning.2.closeText.2.2.outputIndex
          e.closeReasoning.2.closeText.2.2.drawn
          e.closeReasoning.2.closeText.2.2.takeTool.toolCalls).2).map some := by
    rw [hitems, List.map_append, hthought.settled, hreasoningItem, List.map_append, List.map_append,
      List.map_map]
    rfl
  obtain ⟨e', hframes⟩ := finish_frames newId e
  rw [hframes, List.append_assoc, List.append_assoc, Acceptor.read_append_of_some _ hread,
    Acceptor.read_append_of_some _ htext, Acceptor.read_append_of_some _ htools,
    read_cons_token (token_completed _ _), Phase.next]
  rw [if_pos]
  · rfl
  · exact houtput ▸ List.prefix_rfl

theorem encode_inOrder (hinj : ∀ k k' i j, newId k i = newId k' j → i = j) {stage' : Stage}
    (hids : Ids newId e) (h : At e stage p) {event : AiStreamEvent}
    (hnext : stage.next event = some stage') :
    ∃ p', Acceptor.read Phase.frame p (e.encode newId event).1 = some p' ∧
      At (e.encode newId event).2 stage' p' := by
  have hne : e.itemId ≠ e.reasoningId := by
    rw [hids.item, hids.reasoning]
    exact fun heq => absurd (hinj _ _ _ _ heq) (by decide)
  -- an event without a frame about an item leaves everything as it is
  have hquiet {f : SseFrame} (hf : token f = none) : Acceptor.read Phase.frame p [f] = some p := by
    rw [Acceptor.read_singleton, frame_of_none hf]
  have hstage (hstays : ∀ s : Stage, s.next event = some s) : stage = stage' :=
    Option.some.inj ((hstays stage).symm.trans hnext)
  cases event with
  | outputImage mediaType data => cases stage <;> cases hnext
  | messageStart id model =>
    cases hstage fun s => by cases s <;> rfl
    exact ⟨p, hquiet (by rfl), h⟩
  | error message errorClass =>
    cases hstage fun s => by cases s <;> rfl
    exact ⟨p, hquiet (by rfl), h.update _ _ _ _⟩
  | serverToolCall id name status =>
    cases hstage fun s => by cases s <;> rfl
    exact ⟨p, hquiet (token_serverTool name status _), h⟩
  | toolCallStart start =>
    cases hstage fun s => by cases s <;> rfl
    exact ⟨p, rfl, h.update _ _ _ _⟩
  | toolCallArgsDelta index json =>
    cases hstage fun s => by cases s <;> rfl
    exact ⟨p, rfl, h.update _ _ _ _⟩
  | toolCallEnd index =>
    cases hstage fun s => by cases s <;> rfl
    exact ⟨p, rfl, h.update _ _ _ _⟩
  | usageDelta usage =>
    cases hstage fun s => by cases s <;> rfl
    exact ⟨p, rfl, h.update _ _ _ _⟩
  | citation url title =>
    cases stage with
    | thinking => cases hnext
    | ended => cases hnext
    | answering =>
      cases hnext
      cases p with
      | closed => exact absurd h id
      | items l =>
        refine ⟨.items l, ?_, h⟩
        obtain ⟨-, before, hthought, rfl⟩ := h
        have hopen : (before ++ [(e.itemId, (none : Option Json))])[e.outputIndex]? =
            some (e.itemId, none) := hthought.length ▸ List.getElem?_concat_length
        unfold encode
        dsimp only
        rw [read_cons_token (token_about _ (by decide) (by simp)), next_about hopen]
        rfl
  | textDelta text =>
    have hanswering : stage' = .answering ∧ stage ≠ .ended := by
      cases stage <;> cases hnext <;> exact ⟨rfl, nofun⟩
    obtain ⟨rfl, hended⟩ := hanswering
    cases p with
    | closed => cases stage <;> first | exact absurd rfl hended | exact absurd h id
    | items l =>
      obtain ⟨before, hread, hthought, hitem, hreasoning⟩ := h.closeReasoning
      have hopened := read_openText hthought (by rwa [hitem, hreasoning])
      obtain ⟨hitem', hindex, htext, hthought'⟩ := openText_spec hthought
      have hopen : (before ++ [(e.closeReasoning.2.itemId, (none : Option Json))])[
          e.closeReasoning.2.openText.2.outputIndex]? =
            some (e.closeReasoning.2.openText.2.itemId, none) := by
        rw [hitem', hindex, ← hthought.length]
        exact List.getElem?_concat_length
      refine ⟨.items (before ++ [(e.closeReasoning.2.itemId, none)]), ?_, htext, before,
        hthought', by rw [← hitem']; rfl⟩
      unfold encode
      dsimp only
      rw [List.append_assoc, Acceptor.read_append_of_some _ hread,
        Acceptor.read_append_of_some _ hopened,
        read_cons_token (token_about _ (by decide) (by simp)), next_about hopen]
      rfl
  | reasoningDelta text =>
    cases stage with
    | answering => cases hnext
    | ended => cases hnext
    | thinking =>
      cases hnext
      cases p with
      | closed => exact absurd h id
      | items l =>
        obtain ⟨hread, hopen, hid, hindex, hthinking⟩ := read_openReasoning h
        refine ⟨.items [(e.reasoningId, none)], ?_, hthinking⟩
        unfold encode
        dsimp only
        rw [Acceptor.read_append_of_some _ hread,
          read_cons_token (token_about _ (by decide) (by simp)), hindex, hid, next_about (by rfl)]
        rfl
  | messageEnd reason =>
    have hstarted : stage' = .ended ∧ stage ≠ .ended := by
      cases stage <;> cases hnext <;> exact ⟨rfl, nofun⟩
    obtain ⟨rfl, hended⟩ := hstarted
    cases p with
    | closed => cases stage <;> first | exact absurd rfl hended | exact absurd h id
    | items l =>
      exact ⟨.closed, read_finish hinj (hids.start _) (h.update _ _ _ _), trivial⟩

/-- After the completed response there are no more frames about items. -/
theorem stuck_closed {f : SseFrame} {t : Token} (h : token f = some t)
    {frames : List SseFrame} : Acceptor.read Phase.frame .closed (frames ++ [f]) ≠ some p := by
  intro hread
  rw [Acceptor.read_append] at hread
  obtain ⟨q, hq, hread⟩ := Option.bind_eq_some_iff.mp hread
  have hstays : ∀ p f p', p = .closed → True → Phase.frame p f = some p' → p' = .closed := by
    rintro p f p' rfl - hf
    unfold Phase.frame at hf
    cases htoken : token f with
    | none =>
      rw [htoken] at hf
      exact (Option.some.inj hf).symm
    | some t =>
      rw [htoken] at hf
      cases hf
  have hclosed : q = .closed := Acceptor.read_inv hstays rfl (fun _ _ => trivial) hq
  rw [hclosed, read_closed h] at hread
  cases hread

theorem encode_outOfOrder (hne : e.itemId ≠ e.reasoningId) {p' : Phase}
    (h : At e stage p) {event : AiStreamEvent} (hnext : stage.next event = none)
    (hread : Acceptor.read Phase.frame p (e.encode newId event).1 = some p') : Doomed p' := by
  -- a frame about an item that is not open under its index is not accepted
  have hstuck {q : Phase} {event : String} {index : ℕ} {id : String}
      {fields : List (String × Json)} (hevent : event ∈ itemEvents)
      (hnodup : (("type" :: "item_id" :: "output_index" :: fields.map Prod.fst)).Nodup)
      (hq : q.next (.about index id) = none)
      (haccept : Acceptor.read Phase.frame q [frame event (("item_id", .str id) ::
        ("output_index", Json.ofNat index) :: fields)] = some p') : Doomed p' := by
    rw [read_cons_token (token_about index hevent hnodup), hq] at haccept
    cases haccept
  cases event with
  | outputImage mediaType data =>
    unfold encode at hread
    dsimp only at hread
    rw [Acceptor.read_append] at hread
    obtain ⟨q, -, hread⟩ := Option.bind_eq_some_iff.mp hread
    exact doomed_of_image (id_imageItem _ _ _) (isImage_imageItem _ _ _) hread
  | citation url title =>
    refine hstuck (by decide) (by simp) ?_ hread
    cases p with
    | closed => rfl
    | items l =>
      refine if_neg fun hopen => ?_
      cases stage with
      | answering => cases hnext
      | ended => exact absurd h id
      | thinking =>
        obtain ⟨-, -, -, rfl⟩ := h
        have hmem := List.mem_of_getElem? hopen
        split at hmem
        · exact hne (congrArg Prod.fst (List.mem_singleton.mp hmem))
        · exact List.not_mem_nil hmem
  | textDelta text =>
    cases stage with
    | thinking => cases hnext
    | answering => cases hnext
    | ended =>
      cases p with
      | items l => exact absurd h id
      | closed => exact absurd hread (stuck_closed (token_about _ (by decide) (by simp)))
  | reasoningDelta text =>
    cases stage with
    | thinking => cases hnext
    | answering =>
      cases p with
      | closed => exact absurd h id
      | items l =>
        obtain ⟨-, before, hthought, rfl⟩ := h
        unfold encode openReasoning at hread
        by_cases hopen : e.reasoningOpen = true
        · rw [if_pos hopen] at hread
          have hgone : (Phase.items (before ++ [(e.itemId, none)])).next
              (.about e.outputIndex e.reasoningId) = none := by
            refine if_neg fun hc => ?_
            -- the message stands where the reasoning item would have to be
            rw [← hthought.length, List.getElem?_concat_length] at hc
            exact hne (congrArg Prod.fst (Option.some.inj hc))
          exact hstuck (by decide) (by simp) hgone hread
        · rw [if_neg hopen] at hread
          dsimp only at hread
          rw [List.cons_append, read_cons_token (token_added _ (id_reasoningItem _ _)), Phase.next,
            if_neg, Option.bind_none] at hread
          · cases hread
          · rintro ⟨hindex, -⟩
            rw [List.length_append, hthought.length] at hindex
            exact Nat.succ_ne_self _ hindex.symm
    | ended =>
      cases p with
      | items l => exact absurd h id
      | closed => exact absurd hread (stuck_closed (token_about _ (by decide) (by simp)))
  | messageEnd reason =>
    cases stage with
    | thinking => cases hnext
    | answering => cases hnext
    | ended =>
      cases p with
      | items l => exact absurd h id
      | closed =>
        obtain ⟨e', hframes⟩ := finish_frames newId { e with status := finishStr reason }
        have hfinish : (e.encode newId (.messageEnd reason)).1 = _ := hframes
        rw [hfinish] at hread
        exact absurd hread (stuck_closed (token_completed _ _))
  | messageStart id model => cases stage <;> cases hnext
  | toolCallStart start => cases stage <;> cases hnext
  | toolCallArgsDelta index json => cases stage <;> cases hnext
  | toolCallEnd index => cases stage <;> cases hnext
  | usageDelta usage => cases stage <;> cases hnext
  | error message errorClass => cases stage <;> cases hnext
  | serverToolCall id name status => cases stage <;> cases hnext

theorem noImages_encodeStream (h : Ids newId e) (events : List AiStreamEvent) :
    ∀ f ∈ e.encodeStream newId events, NoImages f := by
  induction events generalizing e with
  | nil => exact fun f hf => absurd hf List.not_mem_nil
  | cons event events ih =>
    intro f hf
    rcases List.mem_append.mp hf with hf | hf
    · exact noImages_encode h event f hf
    · exact ih (h.encode event) f hf

theorem At.closed_iff (h : At e stage p) : p = .closed ↔ stage = .ended := by
  cases stage with
  | thinking => cases p with
    | items l => exact ⟨nofun, nofun⟩
    | closed => exact absurd h id
  | answering => cases p with
    | items l => exact ⟨nofun, nofun⟩
    | closed => exact absurd h id
  | ended => cases p with
    | items l => exact absurd h id
    | closed => exact iff_of_true rfl rfl

theorem read_encodeStream_iff (hinj : ∀ k k' i j, newId k i = newId k' j → i = j)
    (hids : Ids newId e) (h : At e stage p) (events : List AiStreamEvent) :
    Acceptor.read Phase.frame p (e.encodeStream newId events) = some .closed ↔
      Acceptor.read Stage.next stage events = some .ended := by
  induction events generalizing e stage p with
  | nil =>
    show some p = some .closed ↔ some stage = some .ended
    rw [Option.some_inj, Option.some_inj]
    exact h.closed_iff
  | cons event events ih =>
    rw [Acceptor.read_cons]
    show Acceptor.read Phase.frame p ((e.encode newId event).1 ++ _) = _ ↔ _
    cases hnext : stage.next event with
    | some stage' =>
      obtain ⟨p', hread, h'⟩ := encode_inOrder hinj hids h hnext
      rw [Acceptor.read_append_of_some _ hread]
      exact ih (hids.encode event) h'
    | none =>
      have hne : e.itemId ≠ e.reasoningId := by
        rw [hids.item, hids.reasoning]
        exact fun heq => absurd (hinj _ _ _ _ heq) (by decide)
      refine iff_of_false (fun hread => ?_) (by rw [Option.bind_none]; nofun)
      rw [Acceptor.read_append] at hread
      obtain ⟨p', hp', hread⟩ := Option.bind_eq_some_iff.mp hread
      exact (encode_outOfOrder hne h hnext hp').not_closed
        (noImages_encodeStream (hids.encode event) events) hread

end

theorem ids_new (newId : String → ℕ → String) (responseId model : String) :
    Ids newId (OpenAiResponsesStreamEncoder.new newId responseId model) := by
  refine ⟨rfl, rfl, le_rfl, ?_⟩
  rintro item hitem
  cases hitem

theorem at_new (newId : String → ℕ → String) (responseId model : String) :
    At (OpenAiResponsesStreamEncoder.new newId responseId model) .thinking (.items []) :=
  ⟨rfl, rfl, rfl, rfl⟩

/-- **When the items of a Responses stream are consistent.**  Each item is added once under the next
index, carries it through its frames, is done once and stands in the output at its index, exactly
when the reasoning precedes the text, the citations follow the text's beginning, nothing of these
follows the end, and there are no images. -/
theorem items_consistent_iff (newId : String → ℕ → String)
    (hinj : ∀ k k' i j, newId k i = newId k' j → i = j) (responseId model : String)
    (events : List AiStreamEvent) :
    Consistent ((OpenAiResponsesStreamEncoder.new newId responseId model).encodeStream newId
      events) ↔ InOrder events :=
  read_encodeStream_iff hinj (ids_new newId responseId model) (at_new newId responseId model) events

/-- Identifiers told apart by their length. -/
def numbered (kind : String) (n : ℕ) : String := kind ++ "_" ++ String.ofList (List.replicate n 'x')

theorem numbered_inj (kind kind' : String) (i j : ℕ) (h : numbered kind i = numbered kind' j) :
    i = j := by
  have hlength (k : String) (n : ℕ) :
      ((numbered k n).toList.reverse.takeWhile (· = 'x')).length = n := by
    unfold numbered
    simp only [String.toList_append, String.toList_ofList, List.reverse_append,
      List.reverse_replicate]
    rw [List.takeWhile_append_of_pos]
    · simp
    · intro c hc
      exact decide_eq_true (List.eq_of_mem_replicate hc)
  rw [← hlength kind i, h, hlength]

/-- Reasoning, text and one tool call. -/
theorem items_consistent_reasoned :
    Consistent ((OpenAiResponsesStreamEncoder.new numbered "r" "m").encodeStream numbered
      [.messageStart "r" "m", .reasoningDelta "hm", .textDelta "yes",
        .toolCallStart { index := 0, id := "call", name := "f" }, .toolCallEnd 0,
        .messageEnd .toolCalls]) :=
  (items_consistent_iff numbered numbered_inj "r" "m" _).mpr rfl

/-- An image is done under an index of its own and missing in the output. -/
theorem image_not_in_output :
    ¬ Consistent ((OpenAiResponsesStreamEncoder.new numbered "r" "m").encodeStream numbered
      [.outputImage "image/png" "aGk=", .messageEnd .stop]) := by
  intro hconsistent
  have hread := (read_encodeStream_iff numbered_inj (ids_new numbered "r" "m")
    (at_new numbered "r" "m") _).mp hconsistent
  cases hread

end ResponsesItems

end Switchback
