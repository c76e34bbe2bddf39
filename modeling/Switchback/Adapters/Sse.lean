import Switchback.Lib.Frames
import Switchback.Lib.Json
import Switchback.Lib.Text
import Switchback.Lib.Utf8

/-!
# The SSE framer

Text SSE: frames end with a blank line, the `data` lines of a frame joined are a JSON payload,
and error frames end the stream.  The JSON parser is a parameter.
-/

namespace Switchback

open Lib

def maxSseBufferBytes : ℕ := 1048576

/-- The length of a text in bytes. -/
def byteLen (text : List Char) : ℕ := (text.map Char.utf8Size).sum

/-! ### One frame -/

/-- The error a provider put into a payload. -/
def streamErrorMessage (value : Json) : Option String :=
  (value.get "error").map fun error =>
    match error.asStr with
    | some message => message
    | none =>
        match error.getStr "message" with
        | some message => message
        | none => (value.getStr "message").getD "upstream stream error"

/-- The value of a line with the given field name. -/
def sseField (line : List Char) (field : String) : Option (List Char) :=
  (Text.stripPrefixList field.toList line).bind fun rest =>
    (Text.stripPrefixList [':'] rest).map fun rest =>
      (Text.stripPrefixList [' '] rest).getD rest

/-- The `event` and the `data` lines read so far. -/
structure SseFields where
  event : Option String := none
  dataLines : List String := []

/-- One line of a frame. -/
def SseFields.addLine (fields : SseFields) (line : List Char) : SseFields :=
  if line.isEmpty || (Text.stripPrefixList [':'] line).isSome then fields
  else
    match sseField line "event" with
    | some value => { fields with event := some (String.ofList value) }
    | none =>
        match sseField line "data" with
        | some value => { fields with dataLines := fields.dataLines ++ [String.ofList value] }
        | none => fields

/-- The payload of one frame: none for a frame without data, an error for an error frame. -/
def parseSseFrame (fromStr : String → Except String Json) (frame : List Char) :
    Except String (Option Json) :=
  let fields := (Text.lines frame).foldl SseFields.addLine {}
  if fields.dataLines.isEmpty then .ok none
  else
    let data := Text.trim (Text.join "\n" fields.dataLines)
    if data.isEmpty || data == "[DONE]" then .ok none
    else
      match fromStr data with
      | .error error => .error s!"malformed SSE JSON frame: {error}"
      | .ok value =>
          if fields.event == some "error" then
            .error ((streamErrorMessage value).getD "upstream stream error event")
          else
            match streamErrorMessage value with
            | some message => .error message
            | none => .ok (some value)

/-! ### One chunk -/

/-- `\r\n` to `\n`. -/
def crlfToLf : List Char → List Char
  | '\r' :: '\n' :: text => '\n' :: crlfToLf text
  | c :: text => c :: crlfToLf text
  | [] => []

/-- All line ends to `\n`. -/
def normalize (text : List Char) : List Char :=
  (crlfToLf text).map fun c => if c = '\r' then '\n' else c

/-- The unfinished text. -/
structure SseFramer where
  buffer : List Char := []

/-- Take complete frames off the buffer, at most `fuel` of them, up to the first error. -/
def drainFrames (fromStr : String → Except String Json) :
    ℕ → List Char → List Json → Except String (List Json) × List Char
  | 0, buffer, out => (.ok out, buffer)
  | fuel + 1, buffer, out =>
      match Text.splitOnceList ['\n', '\n'] buffer with
      | none => (.ok out, buffer)
      | some (frame, rest) =>
          match parseSseFrame fromStr (frame ++ ['\n', '\n']) with
          | .error error => (.error error, rest)
          | .ok none => drainFrames fromStr fuel rest out
          | .ok (some value) => drainFrames fromStr fuel rest (out ++ [value])

namespace SseFramer

/-- A frame takes two characters at least, so the length of the buffer bounds the loop. -/
def push (fromStr : String → Except String Json) (framer : SseFramer) (bytes : List UInt8) :
    Except String (List Json) × SseFramer :=
  let buffer := framer.buffer ++ normalize (Utf8.lossy bytes)
  if byteLen buffer > maxSseBufferBytes then
    (.error s!"SSE frame buffer exceeded {maxSseBufferBytes} bytes", ⟨buffer⟩)
  else
    let (result, rest) := drainFrames fromStr buffer.length buffer []
    (result, ⟨rest⟩)

/-- Push chunk after chunk; the values delivered up to the first error, and that error. -/
def run (fromStr : String → Except String Json) (framer : SseFramer) :
    List (List UInt8) → List Json × Option String
  | [] => ([], none)
  | bytes :: chunks =>
      match framer.push fromStr bytes with
      | (.error error, _) => ([], some error)
      | (.ok values, framer) =>
          (values ++ (framer.run fromStr chunks).1, (framer.run fromStr chunks).2)

end SseFramer

/-! ### What a push does -/

/-- The values of a list of frame results up to the first error, and that error. -/
def outcome : List (Except String (Option Json)) → List Json × Option String
  | [] => ([], none)
  | .error error :: _ => ([], some error)
  | .ok none :: results => outcome results
  | .ok (some value) :: results => (value :: (outcome results).1, (outcome results).2)

theorem outcome_append_of_none {rs : List (Except String (Option Json))}
    (h : (outcome rs).2 = none) (rs' : List (Except String (Option Json))) :
    outcome (rs ++ rs') = ((outcome rs).1 ++ (outcome rs').1, (outcome rs').2) := by
  induction rs with
  | nil => rfl
  | cons r rs ih =>
    rcases r with error | value
    · exact absurd h (by simp [outcome])
    · cases value with
      | none => exact ih h
      | some value => rw [List.cons_append, outcome, ih h]; rfl

theorem outcome_append_of_some {rs : List (Except String (Option Json))} {error : String}
    (h : (outcome rs).2 = some error) (rs' : List (Except String (Option Json))) :
    outcome (rs ++ rs') = outcome rs := by
  induction rs with
  | nil => exact absurd h (by simp [outcome])
  | cons r rs ih =>
    rcases r with error' | value
    · rfl
    · cases value with
      | none => exact ih h
      | some value => rw [List.cons_append, outcome, outcome, ih h]

/-- The frames of normalized text. -/
abbrev cutText : List Char → List (List Char) × List Char := Frames.cut (· == '\n')

theorem cutText_of_splitOnce_none {l : List Char}
    (h : Text.splitOnceList ['\n', '\n'] l = none) : cutText l = ([], l) := by
  induction l with
  | nil => rfl
  | cons c l ih =>
    unfold Text.splitOnceList at h
    split at h
    · exact absurd h (by simp)
    · next hstrip =>
      have htail := ih (Option.map_eq_none_iff.mp h)
      cases l with
      | nil => rfl
      | cons d l =>
        have hne : ¬ ((c == '\n') && (d == '\n')) = true := by
          intro hcd
          rw [Bool.and_eq_true, beq_iff_eq, beq_iff_eq] at hcd
          rw [hcd.1, hcd.2] at hstrip
          exact absurd hstrip (by simp [Text.stripPrefixList])
        unfold cutText at htail ⊢
        rw [Frames.cut, if_neg hne, htail]
        rfl

theorem cutText_of_splitOnce_some {l frame rest : List Char}
    (h : Text.splitOnceList ['\n', '\n'] l = some (frame, rest)) :
    cutText l = ((frame ++ ['\n', '\n']) :: (cutText rest).1, (cutText rest).2) ∧
      rest.length + 2 ≤ l.length := by
  induction l generalizing frame with
  | nil => exact absurd h (by simp [Text.splitOnceList])
  | cons c l ih =>
    unfold Text.splitOnceList at h
    split at h
    · next r hstrip =>
      have hl := Text.stripPrefixList_eq_some hstrip
      obtain ⟨rfl, rfl⟩ : [] = frame ∧ r = rest := by simpa using h
      rw [hl]
      exact ⟨rfl, by simp⟩
    · next hstrip =>
      obtain ⟨⟨frame', rest'⟩, htail, heq⟩ := Option.map_eq_some_iff.mp h
      obtain ⟨rfl, rfl⟩ : c :: frame' = frame ∧ rest' = rest := by simpa using heq
      obtain ⟨hcut, hlen⟩ := ih htail
      refine ⟨?_, by rw [List.length_cons]; omega⟩
      cases l with
      | nil => exact absurd htail (by simp [Text.splitOnceList])
      | cons d l =>
        have hne : ¬ ((c == '\n') && (d == '\n')) = true := by
          intro hcd
          rw [Bool.and_eq_true, beq_iff_eq, beq_iff_eq] at hcd
          rw [hcd.1, hcd.2] at hstrip
          exact absurd hstrip (by simp [Text.stripPrefixList])
        unfold cutText at hcut ⊢
        rw [Frames.cut, if_neg hne, hcut]
        rfl

/-- The results of the frames of a text. -/
def frameResults (fromStr : String → Except String Json) (text : List Char) :
    List (Except String (Option Json)) :=
  (cutText text).1.map (parseSseFrame fromStr)

/-- The loop delivers the values of the complete frames and keeps the rest, or stops at the
first error. -/
theorem drainFrames_spec (fromStr : String → Except String Json) {fuel : ℕ} {buffer : List Char}
    (hfuel : buffer.length ≤ fuel) (out : List Json) :
    ((outcome (frameResults fromStr buffer)).2 = none →
      drainFrames fromStr fuel buffer out =
        (.ok (out ++ (outcome (frameResults fromStr buffer)).1), (cutText buffer).2)) ∧
    (∀ error, (outcome (frameResults fromStr buffer)).2 = some error →
      (drainFrames fromStr fuel buffer out).1 = .error error) := by
  induction fuel generalizing buffer out with
  | zero =>
    have hnil : buffer = [] := List.length_eq_zero_iff.mp (by omega)
    subst hnil
    exact ⟨fun _ => by simp [drainFrames, frameResults, cutText, Frames.cut, outcome],
      fun error h => absurd h (by simp [frameResults, cutText, Frames.cut, outcome])⟩
  | succ fuel ih =>
    unfold drainFrames frameResults
    cases hsplit : Text.splitOnceList ['\n', '\n'] buffer with
    | none =>
      rw [cutText_of_splitOnce_none hsplit]
      exact ⟨fun _ => by simp [outcome], fun error h => absurd h (by simp [outcome])⟩
    | some p =>
      obtain ⟨frame, rest⟩ := p
      obtain ⟨hcut, hlen⟩ := cutText_of_splitOnce_some hsplit
      rw [hcut, List.map_cons]
      dsimp only
      cases hparse : parseSseFrame fromStr (frame ++ ['\n', '\n']) with
      | error e =>
        refine ⟨fun h => absurd h (by simp [outcome]), fun error h => ?_⟩
        have he : e = error := by simpa [outcome] using h
        rw [he]
      | ok value =>
        cases value with
        | none => exact ih (by omega) out
        | some value =>
          have hih := @ih rest (by omega) (out ++ [value])
          rw [List.append_assoc, List.singleton_append] at hih
          exact hih

/-- **What a push does**, for a chunk that fits. -/
theorem push_spec (fromStr : String → Except String Json) (framer : SseFramer)
    {bytes : List UInt8}
    (hfit : byteLen (framer.buffer ++ normalize (Utf8.lossy bytes)) ≤ maxSseBufferBytes) :
    ((outcome (frameResults fromStr (framer.buffer ++ normalize (Utf8.lossy bytes)))).2 = none →
      framer.push fromStr bytes =
        (.ok (outcome (frameResults fromStr
          (framer.buffer ++ normalize (Utf8.lossy bytes)))).1,
          ⟨(cutText (framer.buffer ++ normalize (Utf8.lossy bytes))).2⟩)) ∧
    (∀ error,
      (outcome (frameResults fromStr (framer.buffer ++ normalize (Utf8.lossy bytes)))).2 =
        some error → (framer.push fromStr bytes).1 = .error error) := by
  obtain ⟨hok, herr⟩ := drainFrames_spec fromStr
    (Nat.le_refl (framer.buffer ++ normalize (Utf8.lossy bytes)).length) []
  unfold SseFramer.push
  dsimp only
  rw [if_neg (by omega)]
  refine ⟨fun h => ?_, herr⟩
  rw [hok h, List.nil_append]

end Switchback
