import Switchback.Compress.Filters
import Switchback.Lib.Accumulate
import Switchback.Runtime.Preview

/-!
# Compressing the tool results of a request

A pass over the messages rewrites the texts of tool results, and nothing else.
-/

namespace Switchback

namespace Compress

open Lib

/-! ### The code -/

/-- The bytes of the blobs that were compressed, and the filters that fired. -/
structure CompressionStats where
  bytesBefore : ℕ := 0
  bytesAfter : ℕ := 0
  filtersApplied : List String := []

def CompressionStats.saved (stats : CompressionStats) : ℕ := stats.bytesBefore - stats.bytesAfter

/-- Apply a filter; a panic, growth and the empty text are no benefit. -/
def safeApply (text : String) (filter : Filter) : Option String :=
  match filter text with
  | some out => if out ≠ "" ∧ Text.len out < Text.len text then some out else none
  | none => none

abbrev Detect := String → Option (String × Filter)

def compressTextWith (detect : Detect) (text : String) : String × Option String :=
  match detect text with
  | some (name, filter) =>
      match safeApply text filter with
      | some out => (out, some name)
      | none => (text, none)
  | none => (text, none)

def minCompressBytes : ℕ := 500

def maxCompressBytes : ℕ := 10 * 1024 * 1024

/-- No structured output, within the size gates. -/
def compressible (content : String) (contentParts : List ToolResultContentPart) : Bool :=
  (contentParts.isEmpty || contentParts == [.text content]) &&
    (decide (minCompressBytes ≤ Text.len content) && decide (Text.len content ≤ maxCompressBytes))

def compressPart (detect : Detect) (part : ContentPart) (stats : CompressionStats) :
    ContentPart × CompressionStats :=
  match part with
  | .toolResult id content contentParts isError =>
      if isError then (part, stats)
      else if !compressible content contentParts then (part, stats)
      else
        let (compressed, filter) := compressTextWith detect content
        let contentParts := match contentParts with
          | [.text _] => [.text compressed]
          | parts => parts
        (.toolResult id compressed contentParts isError,
          { bytesBefore := stats.bytesBefore + Text.len content
            bytesAfter := stats.bytesAfter + Text.len compressed
            filtersApplied := stats.filtersApplied ++ filter.toList })
  | part => (part, stats)

def compressMessage (detect : Detect) (message : Message) (stats : CompressionStats) :
    Message × CompressionStats :=
  let (content, stats) := mapAccum (compressPart detect) message.content stats
  ({ message with content := content }, stats)

def compressRequestWith (detect : Detect) (req : AiRequest) : AiRequest × CompressionStats :=
  let (messages, stats) := mapAccum (compressMessage detect) req.messages {}
  ({ req with messages := messages }, stats)

/-! ### One part -/

section Frame

variable (detect : Detect)

theorem safeApply_eq_some {text out : String} {filter : Filter}
    (h : safeApply text filter = some out) : out ≠ "" ∧ Text.len out < Text.len text := by
  unfold safeApply at h
  cases hf : filter text with
  | none => rw [hf] at h; cases h
  | some out' =>
    rw [hf] at h
    dsimp only at h
    by_cases hout : out' ≠ "" ∧ Text.len out' < Text.len text
    · rw [if_pos hout] at h
      cases h
      exact hout
    · rw [if_neg hout] at h
      cases h

theorem compressTextWith_cases (text : String) :
    (compressTextWith detect text).1 = text ∨
      (compressTextWith detect text).1 ≠ "" ∧
        Text.len (compressTextWith detect text).1 < Text.len text := by
  unfold compressTextWith
  cases hd : detect text with
  | none => exact Or.inl rfl
  | some found =>
    obtain ⟨name, filter⟩ := found
    cases hs : safeApply text filter with
    | none => exact Or.inl (by simp [hs])
    | some out => exact Or.inr (by simpa [hs] using safeApply_eq_some hs)

/-- The text of a tool result is within the size gates. -/
def InGates (content : String) : Prop :=
  500 ≤ Text.len content ∧ Text.len content ≤ 10 * 1024 * 1024

/-- What compression may do to a part: nothing, or give a successful tool result of unstructured
text a shorter text. -/
inductive PartShrunk : ContentPart → ContentPart → Prop
  | same (part : ContentPart) : PartShrunk part part
  | plain (id : String) {content content' : String} (gates : InGates content)
      (nonempty : content' ≠ "") (shorter : Text.len content' < Text.len content) :
      PartShrunk (.toolResult id content [] false) (.toolResult id content' [] false)
  | mirrored (id : String) {content content' : String} (gates : InGates content)
      (nonempty : content' ≠ "") (shorter : Text.len content' < Text.len content) :
      PartShrunk (.toolResult id content [.text content] false)
        (.toolResult id content' [.text content'] false)

theorem compressible_iff {content : String} {contentParts : List ToolResultContentPart} :
    compressible content contentParts = true ↔
      (contentParts = [] ∨ contentParts = [.text content]) ∧ InGates content := by
  unfold compressible InGates
  rw [Bool.and_eq_true, Bool.and_eq_true, Bool.or_eq_true, List.isEmpty_iff, beq_iff_eq,
    decide_eq_true_eq, decide_eq_true_eq]
  rfl

/-- What the steps through a request do to a part, whatever the counters are. -/
def shrinkPart (part : ContentPart) : ContentPart := (compressPart detect part {}).1

variable (part : ContentPart) (message : Message)

theorem compressPart_fst (stats : CompressionStats) :
    (compressPart detect part stats).1 = shrinkPart detect part := by
  unfold shrinkPart compressPart
  split
  · split_ifs <;> rfl
  · rfl

theorem shrinkPart_shrunk : PartShrunk part (shrinkPart detect part) := by
  cases part with
  | toolResult id content contentParts isError =>
    unfold shrinkPart compressPart
    dsimp only
    cases isError with
    | true => exact .same _
    | false =>
      by_cases hc : compressible content contentParts = true
      · rw [if_neg Bool.false_ne_true, hc]
        obtain ⟨hparts, hgates⟩ := compressible_iff.1 hc
        rcases compressTextWith_cases detect content with hsame | ⟨hne, hlt⟩
        · rcases hparts with rfl | rfl
          · simpa [hsame] using PartShrunk.same (.toolResult id content [] false)
          · simpa [hsame] using PartShrunk.same (.toolResult id content [.text content] false)
        · rcases hparts with rfl | rfl
          · exact .plain id hgates hne hlt
          · exact .mirrored id hgates hne hlt
      · simpa [hc] using PartShrunk.same (.toolResult id content contentParts false)
  | _ => exact .same _

/-! ### The bytes -/

/-- The bytes of a tool result's text. -/
def partBytes : ContentPart → ℕ
  | .toolResult _ content _ _ => Text.len content
  | _ => 0

def messageBytes (message : Message) : ℕ := (message.content.map partBytes).sum

def toolBytes (req : AiRequest) : ℕ := (req.messages.map messageBytes).sum

/-- The counters show no growth. -/
def CompressionStats.NoGrowth (stats : CompressionStats) : Prop :=
  stats.bytesAfter ≤ stats.bytesBefore

theorem compressTextWith_le (text : String) :
    Text.len (compressTextWith detect text).1 ≤ Text.len text := by
  rcases compressTextWith_cases detect text with h | ⟨-, h⟩
  · exact (congrArg Text.len h).le
  · exact h.le

theorem compressPart_bytes (stats : CompressionStats) (h : stats.NoGrowth) :
    (compressPart detect part stats).2.NoGrowth ∧
      (compressPart detect part stats).2.saved + partBytes (compressPart detect part stats).1 =
        stats.saved + partBytes part := by
  unfold CompressionStats.NoGrowth at h ⊢
  cases part with
  | toolResult id content contentParts isError =>
    unfold compressPart
    dsimp only
    split_ifs with herror hc
    · exact ⟨h, rfl⟩
    · exact ⟨h, rfl⟩
    · have hle := compressTextWith_le detect content
      unfold CompressionStats.saved partBytes
      dsimp only
      omega
  | _ => exact ⟨h, rfl⟩

theorem compressMessage_bytes (stats : CompressionStats) (h : stats.NoGrowth) :
    (compressMessage detect message stats).2.NoGrowth ∧
      (compressMessage detect message stats).2.saved +
          messageBytes (compressMessage detect message stats).1 =
        stats.saved + messageBytes message :=
  mapAccum_balance (fun part stats h => (compressPart_bytes detect part stats h).1)
    (fun part stats h => (compressPart_bytes detect part stats h).2) message.content h

/-! ### A request -/

def shrinkMessage (message : Message) : Message :=
  { message with content := message.content.map (shrinkPart detect) }

theorem compressMessage_fst (stats : CompressionStats) :
    (compressMessage detect message stats).1 = shrinkMessage detect message := by
  unfold compressMessage shrinkMessage
  dsimp only
  rw [mapAccum_fst (compressPart_fst detect)]

theorem compressRequestWith_fst (req : AiRequest) :
    (compressRequestWith detect req).1 =
      { req with messages := req.messages.map (shrinkMessage detect) } := by
  unfold compressRequestWith
  dsimp only
  rw [mapAccum_fst (compressMessage_fst detect)]

/-- The text and a single text part that mirrors it. -/
def Mirrored : ContentPart → Prop
  | .toolResult _ content contentParts _ => contentParts = [.text content]
  | _ => False

theorem PartShrunk.mirrored_of {part part' : ContentPart} (h : PartShrunk part part')
    (hm : Mirrored part) : Mirrored part' := by
  cases h with
  | same => exact hm
  | plain => cases hm
  | mirrored => rfl

/-- A message keeps everything but the texts of tool results. -/
structure MessageShrunk (message message' : Message) : Prop where
  elsewhere : message' = { message with content := message'.content }
  parts : List.Forall₂ PartShrunk message.content message'.content
  mirrors : List.Forall₂ (fun part part' => Mirrored part → Mirrored part')
    message.content message'.content

/-- A request keeps everything but the texts of tool results, which lose the bytes that the
counters show. -/
structure Frame (req req' : AiRequest) (stats : CompressionStats) : Prop where
  elsewhere : req' = { req with messages := req'.messages }
  messages : List.Forall₂ MessageShrunk req.messages req'.messages
  noGrowth : stats.bytesAfter ≤ stats.bytesBefore
  removed : toolBytes req = toolBytes req' + (stats.bytesBefore - stats.bytesAfter)

theorem shrinkMessage_shrunk :
    MessageShrunk message (shrinkMessage detect message) where
  elsewhere := rfl
  parts := by
    unfold shrinkMessage
    exact List.forall₂_map_right_iff.2
      (List.forall₂_same.2 fun part _ => shrinkPart_shrunk detect part)
  mirrors := by
    unfold shrinkMessage
    exact List.forall₂_map_right_iff.2
      (List.forall₂_same.2 fun part _ => (shrinkPart_shrunk detect part).mirrored_of)

/-- **Compression is fail-safe and local**, whatever the detected filters do. -/
theorem compressRequestWith_frame (req : AiRequest) :
    Frame req (compressRequestWith detect req).1 (compressRequestWith detect req).2 := by
  have hstart : CompressionStats.NoGrowth {} := le_refl 0
  obtain ⟨hgrowth, hbytes⟩ := mapAccum_balance
    (fun message stats h => (compressMessage_bytes detect message stats h).1)
    (fun message stats h => (compressMessage_bytes detect message stats h).2) req.messages hstart
  refine ⟨rfl, ?_, hgrowth, ?_⟩
  · rw [compressRequestWith_fst]
    exact List.forall₂_map_right_iff.2
      (List.forall₂_same.2 fun message _ => shrinkMessage_shrunk detect message)
  · have hsaved : CompressionStats.saved {} = 0 := rfl
    rw [hsaved, Nat.zero_add, Nat.add_comm] at hbytes
    exact hbytes.symm

end Frame

end Compress

end Switchback
