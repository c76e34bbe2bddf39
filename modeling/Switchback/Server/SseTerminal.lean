import Switchback.Lib.AsciiSearch

/-!
# The end of a tapped stream

The tap passes the chunks of an SSE response on and looks for a terminal event in a window of the
last bytes.  The window is cut to its size before it is searched.
-/

namespace Switchback

namespace SseTerminal

open Lib

abbrev Bytes := List UInt8

def tapSseTerminalWindowBytes : ℕ := 8192

def terminalMarkers : List String :=
  ["response.completed", "response.failed", "response.cancelled", "response.incomplete", "[DONE]",
    "message_stop"]

def sseWindowHasTerminalEvent (window : Bytes) : Bool :=
  terminalMarkers.any fun marker => Text.containsList marker.toList (Utf8.lossy window)

structure TapResponseStream where
  observeSseTerminal : Bool
  sawTerminal : Bool := false
  sseWindow : Bytes := []

/-- The last `size` bytes. -/
def lastBytes (size : ℕ) (bytes : Bytes) : Bytes := bytes.drop (bytes.length - size)

/-- The last bytes, as many as the window holds. -/
def lastWindow : Bytes → Bytes := lastBytes tapSseTerminalWindowBytes

def observeChunk (s : TapResponseStream) (chunk : Bytes) : TapResponseStream :=
  if !s.observeSseTerminal || s.sawTerminal then s
  else
    let window := lastWindow (s.sseWindow ++ chunk)
    if sseWindowHasTerminalEvent window then { s with sawTerminal := true, sseWindow := [] }
    else { s with sseWindow := window }

/-- What the end of the body is recorded with. -/
def finalWarning (s : TapResponseStream) : Option String :=
  if s.observeSseTerminal && !s.sawTerminal then some "upstream_closed_before_terminal" else none

/-- The stream of an SSE response after these chunks. -/
def afterChunks (chunks : List Bytes) : TapResponseStream :=
  chunks.foldl observeChunk { observeSseTerminal := true }

/-- A terminal marker is in the bytes. -/
def HasMarker (bytes : Bytes) : Prop :=
  ∃ marker ∈ terminalMarkers, marker.toList.map Utf8.asciiByte <:+: bytes

theorem hasTerminalEvent_iff (window : Bytes) :
    sseWindowHasTerminalEvent window = true ↔ HasMarker window := by
  have hascii : ∀ marker ∈ terminalMarkers, (∀ c ∈ marker.toList, Utf8.IsAscii c) ∧
      marker.toList ≠ [] := by
    unfold Utf8.IsAscii terminalMarkers
    simp
  unfold sseWindowHasTerminalEvent HasMarker
  rw [List.any_eq_true]
  refine exists_congr fun marker => and_congr_right fun hmem => ?_
  exact Text.containsList_lossy_iff (hascii marker hmem).1 (hascii marker hmem).2 window

theorem lastBytes_append (size : ℕ) (a b : Bytes) :
    lastBytes size (lastBytes size a ++ b) = lastBytes size (a ++ b) := by
  unfold lastBytes
  rw [← List.drop_append_of_le_length (by omega), List.drop_drop]
  congr 1
  simp only [List.length_drop, List.length_append]
  omega

theorem lastBytes_replicate (size : ℕ) (front : Bytes) (b : UInt8) :
    lastBytes size (front ++ List.replicate size b) = List.replicate size b := by
  rw [lastBytes, List.length_append, List.length_replicate, Nat.add_sub_cancel, List.drop_left]

theorem lastWindow_nil : lastWindow [] = [] := List.drop_nil

theorem lastWindow_append (a b : Bytes) : lastWindow (lastWindow a ++ b) = lastWindow (a ++ b) :=
  lastBytes_append _ a b

theorem drop_lastBytes {size i : ℕ} {bytes : Bytes} (h : bytes.length ≤ i + size) :
    bytes.drop i = (lastBytes size bytes).drop (i - (bytes.length - size)) := by
  rw [lastBytes, List.drop_drop]
  congr 1
  omega

theorem infix_lastBytes {size : ℕ} {bytes marker : Bytes} (h : marker <:+: lastBytes size bytes) :
    ∃ i, marker <+: bytes.drop i ∧ i + marker.length ≤ bytes.length ∧ bytes.length ≤ i + size := by
  obtain ⟨front, back, hview⟩ := h
  have hlength := congrArg List.length hview
  simp only [lastBytes, List.length_append, List.length_drop] at hlength
  refine ⟨bytes.length - size + front.length, ?_, by omega, by omega⟩
  rw [← List.drop_drop, ← lastBytes, ← hview, List.append_assoc, List.drop_left' rfl]
  exact List.prefix_append _ _

/-- Some window was searched with a marker in it. -/
def SeenIn (chunks : List Bytes) : Prop :=
  ∃ n, HasMarker (lastWindow (chunks.take n).flatten)

theorem seenIn_concat (chunks : List Bytes) (chunk : Bytes) :
    SeenIn (chunks ++ [chunk]) ↔
      SeenIn chunks ∨ HasMarker (lastWindow (chunks ++ [chunk]).flatten) := by
  constructor
  · rintro ⟨n, hn⟩
    rcases Nat.lt_or_ge chunks.length n with hlong | hshort
    · rw [List.take_of_length_le (by rw [List.length_append]; exact hlong)] at hn
      exact .inr hn
    · rw [List.take_append_of_le_length hshort] at hn
      exact .inl ⟨n, hn⟩
  · rintro (⟨n, hn⟩ | hlast)
    · refine ⟨min n chunks.length, ?_⟩
      rwa [List.take_append_of_le_length (min_le_right _ _), ← List.take_eq_take_min]
    · refine ⟨chunks.length + 1, ?_⟩
      rwa [List.take_of_length_le (by simp)]

theorem observeChunk_of_open {s : TapResponseStream} {chunk : Bytes}
    (hobserve : s.observeSseTerminal = true) (hsaw : s.sawTerminal = false) :
    observeChunk s chunk =
      if sseWindowHasTerminalEvent (lastWindow (s.sseWindow ++ chunk)) then
        { s with sawTerminal := true, sseWindow := [] }
      else { s with sseWindow := lastWindow (s.sseWindow ++ chunk) } :=
  if_neg (by simp [hobserve, hsaw])

/-- **The state after any chunks.** -/
theorem foldl_observeChunk (chunks : List Bytes) :
    ((afterChunks chunks).sawTerminal = true ↔ SeenIn chunks) ∧
      (afterChunks chunks).observeSseTerminal = true ∧
      ((afterChunks chunks).sawTerminal = false →
        (afterChunks chunks).sseWindow = lastWindow chunks.flatten) := by
  induction chunks using List.reverseRecOn with
  | nil =>
    refine ⟨iff_of_false Bool.false_ne_true ?_, rfl, fun _ => lastWindow_nil.symm⟩
    rintro ⟨n, hn⟩
    rw [List.take_nil, List.flatten_nil, lastWindow_nil, ← hasTerminalEvent_iff] at hn
    revert hn
    decide
  | append_singleton chunks chunk ih =>
    obtain ⟨hsaw, hobserve, hwindow⟩ := ih
    have hrun : afterChunks (chunks ++ [chunk]) = observeChunk (afterChunks chunks) chunk := by
      rw [afterChunks, List.foldl_append, List.foldl_cons, List.foldl_nil, afterChunks]
    rw [hrun, seenIn_concat, ← hsaw]
    by_cases hseen : (afterChunks chunks).sawTerminal = true
    · rw [observeChunk, if_pos (by simp [hseen])]
      exact ⟨iff_of_true hseen (.inl hseen), hobserve, fun h => absurd hseen (by simp [h])⟩
    · rw [Bool.not_eq_true] at hseen
      have hopen := @observeChunk_of_open _ chunk hobserve hseen
      rw [hwindow hseen, lastWindow_append, ← List.flatten_concat] at hopen
      rw [← hasTerminalEvent_iff, hopen, hseen]
      by_cases hfound : sseWindowHasTerminalEvent (lastWindow (chunks ++ [chunk]).flatten) = true
      · rw [if_pos hfound]
        exact ⟨iff_of_true rfl (.inr hfound), hobserve, fun h => by cases h⟩
      · rw [if_neg hfound]
        dsimp only
        refine ⟨iff_of_false Bool.false_ne_true ?_, hobserve, fun _ => rfl⟩
        rintro (hsaw | hlast)
        · exact Bool.false_ne_true hsaw
        · exact hfound hlast

/-! ### Where a marker is seen -/

/-- An occurrence of a marker begins within the window's size before the end of a chunk that it is
complete in. -/
def InView (chunks : List Bytes) : Prop :=
  ∃ marker ∈ terminalMarkers, ∃ n i : ℕ,
    marker.toList.map Utf8.asciiByte <+: chunks.flatten.drop i ∧
      i + marker.length ≤ (chunks.take n).flatten.length ∧
      (chunks.take n).flatten.length ≤ i + tapSseTerminalWindowBytes

theorem seenIn_iff_inView (chunks : List Bytes) : SeenIn chunks ↔ InView chunks := by
  have hrest (n : ℕ) : chunks.flatten = (chunks.take n).flatten ++ (chunks.drop n).flatten := by
    rw [← List.flatten_append, List.take_append_drop]
  constructor
  · rintro ⟨n, marker, hmarker, hwithin⟩
    obtain ⟨i, hfront, hcomplete, hsize⟩ := infix_lastBytes hwithin
    rw [List.length_map, String.length_toList] at hcomplete
    refine ⟨marker, hmarker, n, i, ?_, hcomplete, hsize⟩
    rw [hrest n, List.drop_append_of_le_length (by omega)]
    exact hfront.trans (List.prefix_append _ _)
  · rintro ⟨marker, hmarker, n, i, hfront, hcomplete, hsize⟩
    refine ⟨n, marker, hmarker, ?_⟩
    rw [hrest n, List.drop_append_of_le_length (by omega)] at hfront
    have hin : marker.toList.map Utf8.asciiByte <+: (chunks.take n).flatten.drop i := by
      refine List.prefix_of_prefix_length_le hfront (List.prefix_append _ _) ?_
      rw [List.length_map, List.length_drop, String.length_toList]
      omega
    rw [drop_lastBytes hsize] at hin
    exact hin.isInfix.trans (List.drop_suffix _ _).isInfix

/-- The diagnosis is that of the whole body. -/
def DiagnosesBody (chunks : List Bytes) : Prop :=
  ((afterChunks chunks).sawTerminal = true ↔ HasMarker chunks.flatten) ∧
    (finalWarning (afterChunks chunks) = some "upstream_closed_before_terminal" ↔
      ¬ HasMarker chunks.flatten)

/-- **When the diagnosis does not depend on the cuts.**  The body has no marker, or one is in view
at the end of some chunk. -/
theorem diagnoses_body_iff (chunks : List Bytes) :
    DiagnosesBody chunks ↔ (¬ HasMarker chunks.flatten ∨ InView chunks) := by
  obtain ⟨hsaw, hobserve, -⟩ := foldl_observeChunk chunks
  have hwarning : finalWarning (afterChunks chunks) = some "upstream_closed_before_terminal" ↔
      ¬ (afterChunks chunks).sawTerminal = true := by
    rw [finalWarning, hobserve]
    cases (afterChunks chunks).sawTerminal <;> simp
  have hbody : InView chunks → HasMarker chunks.flatten := by
    rintro ⟨marker, hmarker, -, i, hfront, -, -⟩
    exact ⟨marker, hmarker, hfront.isInfix.trans (List.drop_suffix _ _).isInfix⟩
  rw [DiagnosesBody, hwarning, hsaw, seenIn_iff_inView, not_iff_not, and_self]
  constructor
  · intro h
    by_cases hmarker : HasMarker chunks.flatten
    · exact .inr (h.2 hmarker)
    · exact .inl hmarker
  · rintro (hnone | hview)
    · exact ⟨hbody, fun h => absurd h hnone⟩
    · exact iff_of_true hview (hbody hview)

/-- A final event that is longer than the window, in one chunk. -/
def longFinalEvent : Bytes := "[DONE]".toList.map Utf8.asciiByte ++ List.replicate 8192 97

/-- The marker is cut away before the window is searched. -/
theorem long_final_event_missed : ¬ DiagnosesBody [longFinalEvent] := by
  intro h
  have hbody : HasMarker [longFinalEvent].flatten := by
    refine ⟨"[DONE]", by decide, ?_⟩
    rw [List.flatten_singleton]
    exact (List.prefix_append _ _).isInfix
  obtain ⟨n, marker, hmarker, hwithin⟩ := (foldl_observeChunk _).1.1 (h.1.2 hbody)
  have hother : ∀ marker ∈ terminalMarkers, ∃ b ∈ marker.toList.map Utf8.asciiByte, b ≠ 97 := by
    decide
  have hwindow : lastWindow longFinalEvent = List.replicate 8192 97 :=
    lastBytes_replicate tapSseTerminalWindowBytes ("[DONE]".toList.map Utf8.asciiByte) 97
  obtain ⟨b, hb, hne⟩ := hother marker hmarker
  have hmem : b ∈ List.replicate 8192 (97 : UInt8) := by
    have hin := hwithin.subset hb
    cases n with
    | zero => cases hin
    | succ n =>
      rw [List.take_succ_cons, List.take_nil, List.flatten_singleton, hwindow] at hin
      exact hin
  exact hne (List.eq_of_mem_replicate hmem)

end SseTerminal

end Switchback
