import Switchback.Protocols.Responses
import Switchback.Protocols.Transcript

/-!
# What a client makes of the frames

The rules by which a client of either protocol puts a stream of frames together again.
-/

namespace Switchback

open Lib

/-! ### Messages -/

/-- What an open block collects; a tool block collects for the call at a position. -/
inductive BlockKind where
  | text
  | thinking
  | tool (position : ℕ)

structure MessagesReader where
  transcript : Transcript := {}
  openBlocks : List (ℕ × BlockKind) := []

namespace MessagesReader

def blockStart (r : MessagesReader) (index : ℕ) (block : Json) : MessagesReader :=
  match block.getStr "type" with
  | some "text" => { r with openBlocks := r.openBlocks ++ [(index, .text)] }
  | some "thinking" => { r with openBlocks := r.openBlocks ++ [(index, .thinking)] }
  | some "tool_use" =>
      { transcript :=
          { r.transcript with
            calls := r.transcript.calls ++
              [{ id := (block.getStr "id").getD "", name := (block.getStr "name").getD "",
                 args := "" }] }
        openBlocks := r.openBlocks ++ [(index, .tool r.transcript.calls.length)] }
  | _ => r

def blockDelta (r : MessagesReader) (index : ℕ) (delta : Json) : MessagesReader :=
  match (r.openBlocks.find? fun b => b.1 = index).map Prod.snd, delta.getStr "type" with
  | some .text, some "text_delta" =>
      { r with transcript :=
          { r.transcript with text := r.transcript.text ++ (delta.getStr "text").getD "" } }
  | some .thinking, some "thinking_delta" =>
      { r with transcript :=
          { r.transcript with
            reasoning := r.transcript.reasoning ++ (delta.getStr "thinking").getD "" } }
  | some (.tool position), some "input_json_delta" =>
      { r with transcript :=
          appendAt r.transcript position ((delta.getStr "partial_json").getD "") }
  | _, _ => r

def readFrame (r : MessagesReader) (frame : SseFrame) : MessagesReader :=
  match frame.event, frame.data.getU64 "index" with
  | "content_block_start", some index =>
      (frame.data.get "content_block").elim r (r.blockStart index)
  | "content_block_delta", some index => (frame.data.get "delta").elim r (r.blockDelta index)
  | "content_block_stop", some index =>
      { r with openBlocks := r.openBlocks.filter fun b => b.1 ≠ index }
  | _, _ => r

end MessagesReader

/-- The transcript of a client of Messages. -/
def readMessages (frames : List SseFrame) : Transcript :=
  (frames.foldl MessagesReader.readFrame {}).transcript

/-- One output item of a completed response. -/
def readOutputItem (tr : Transcript) (item : Json) : Transcript :=
  match item.getStr "type" with
  | some "message" =>
      { tr with
        text := tr.text ++ String.join
          (((item.getArray "content").getD []).map fun part => (part.getStr "text").getD "") }
  | some "reasoning" => { tr with reasoning := tr.reasoning ++ reasoningSummaryText item }
  | some "function_call" =>
      { tr with
        calls := tr.calls ++
          [{ id := (item.getStr "call_id").getD "", name := (item.getStr "name").getD "",
             args := (item.getStr "arguments").getD "" }] }
  | _ => tr

/-- The transcript of a completed response. -/
def readCompleted (frame : SseFrame) : Option Transcript :=
  if frame.event = "response.completed" then
    some ((((frame.data.pointer ["response", "output"]).bind Json.asArray).getD []).foldl
      readOutputItem {})
  else none

/-- The transcript of a client of Responses. -/
def readResponses (frames : List SseFrame) : Transcript :=
  (frames.findSome? readCompleted).getD {}

/-! ### What the readers make of the encoders' frames -/

namespace MessagesReader

open AnthropicStreamEncoder

variable (r : MessagesReader) (index : ℕ)

theorem getU64_ofNat {fields : List (String × Json)} (h : (fields.map Prod.fst).Nodup)
    (hk : OrdMap.getList "index" fields = some (Json.ofNat index)) :
    (Json.mkObj fields).getU64 "index" = some index := by
  unfold Json.getU64
  rw [Json.get_mkObj h, hk]
  rfl

@[simp] theorem readFrame_messageStart (e : AnthropicStreamEncoder) :
    r.readFrame e.messageStart = r := rfl

@[simp] theorem readFrame_contentBlockStart (block : Json) :
    r.readFrame (contentBlockStart index block) = r.blockStart index block := by
  have h : (Json.mkObj [("type", .str "content_block_start"), ("index", Json.ofNat index),
      ("content_block", block)]).getU64 "index" = some index :=
    getU64_ofNat index (by simp) rfl
  unfold readFrame contentBlockStart
  dsimp only
  rw [h]
  show ((Json.mkObj [("type", .str "content_block_start"), ("index", Json.ofNat index),
    ("content_block", block)]).get "content_block").elim r (r.blockStart index) = _
  rw [Json.get_mkObj (by simp)]
  rfl

@[simp] theorem readFrame_contentBlockDelta (delta : Json) :
    r.readFrame (contentBlockDelta index delta) = r.blockDelta index delta := by
  have h : (Json.mkObj [("type", .str "content_block_delta"), ("index", Json.ofNat index),
      ("delta", delta)]).getU64 "index" = some index :=
    getU64_ofNat index (by simp) rfl
  unfold readFrame contentBlockDelta
  dsimp only
  rw [h]
  show ((Json.mkObj [("type", .str "content_block_delta"), ("index", Json.ofNat index),
    ("delta", delta)]).get "delta").elim r (r.blockDelta index) = _
  rw [Json.get_mkObj (by simp)]
  rfl

@[simp] theorem readFrame_contentBlockStop :
    r.readFrame (contentBlockStop index) =
      { r with openBlocks := r.openBlocks.filter fun b => b.1 ≠ index } := by
  have h : (Json.mkObj [("type", .str "content_block_stop"),
      ("index", Json.ofNat index)]).getU64 "index" = some index :=
    getU64_ofNat index (by simp) rfl
  unfold readFrame contentBlockStop
  dsimp only
  rw [h]
  rfl

theorem blockStart_text :
    r.blockStart index textBlock = { r with openBlocks := r.openBlocks ++ [(index, .text)] } := by
  have h : textBlock.getStr "type" = some "text" := by
    unfold Json.getStr textBlock
    rw [Json.get_mkObj (by simp)]
    rfl
  unfold blockStart
  rw [h]
  rfl

theorem blockStart_toolUse (id name : String) :
    r.blockStart index (toolUseBlock id name) =
      { transcript :=
          { r.transcript with
            calls := r.transcript.calls ++ [{ id := id, name := name, args := "" }] }
        openBlocks := r.openBlocks ++ [(index, .tool r.transcript.calls.length)] } := by
  have h (k v : String) (hk : OrdMap.getList k [("type", Json.str "tool_use"), ("id", .str id),
      ("name", .str name), ("input", Json.mkObj [])] = some (.str v)) :
      (toolUseBlock id name).getStr k = some v := by
    unfold Json.getStr toolUseBlock
    rw [Json.get_mkObj (by simp), hk]
    rfl
  unfold blockStart
  rw [h "type" "tool_use" rfl, h "id" id rfl, h "name" name rfl]
  rfl

theorem blockDelta_text (text : String)
    (hopen : (r.openBlocks.find? fun b => b.1 = index).map Prod.snd = some .text) :
    r.blockDelta index (textDelta text) =
      { r with transcript := { r.transcript with text := r.transcript.text ++ text } } := by
  have h (k v : String) (hk : OrdMap.getList k [("type", Json.str "text_delta"),
      ("text", .str text)] = some (.str v)) : (textDelta text).getStr k = some v := by
    unfold Json.getStr textDelta
    rw [Json.get_mkObj (by simp), hk]
    rfl
  unfold blockDelta
  rw [hopen, h "type" "text_delta" rfl, h "text" text rfl]
  rfl

theorem getStr_inputJsonDelta (json : String) :
    (inputJsonDelta json).getStr "type" = some "input_json_delta" ∧
      (inputJsonDelta json).getStr "partial_json" = some json := by
  unfold Json.getStr inputJsonDelta
  rw [Json.get_mkObj (by simp), Json.get_mkObj (by simp)]
  exact ⟨rfl, rfl⟩

theorem blockDelta_inputJson (json : String) {position : ℕ}
    (hopen : (r.openBlocks.find? fun b => b.1 = index).map Prod.snd = some (.tool position)) :
    r.blockDelta index (inputJsonDelta json) =
      { r with transcript := appendAt r.transcript position json } := by
  obtain ⟨htype, hjson⟩ := getStr_inputJsonDelta json
  unfold blockDelta
  rw [hopen, htype, hjson]
  rfl

theorem blockDelta_inputJson_lost (json : String)
    (hopen : ∀ position,
      (r.openBlocks.find? fun b => b.1 = index).map Prod.snd ≠ some (.tool position)) :
    r.blockDelta index (inputJsonDelta json) = r := by
  obtain ⟨htype, -⟩ := getStr_inputJsonDelta json
  unfold blockDelta
  rw [htype]
  cases hfind : (r.openBlocks.find? fun b => b.1 = index).map Prod.snd with
  | none => rfl
  | some kind =>
    cases kind with
    | text => rfl
    | thinking => rfl
    | tool position => exact absurd hfind (hopen position)

end MessagesReader

end Switchback
