import Mathlib.Data.String.Basic
import Switchback.Lib.Puller
import Switchback.Lib.Text
import Switchback.Lib.Utf8

/-!
# The AWS event-stream decoder

Messages are framed with their length, the length of their headers and two checksums; the
checksum is any function of bytes.  Indices and slices are checked, and so are subtractions:
`none` is a call that would be out of range.
-/

namespace Switchback

namespace EventStream

open Lib

abbrev Bytes := List UInt8

/-! ### The code -/

def maxMessageBytes : ℕ := 16 * 1024 * 1024

def maxBufferBytes : ℕ := 2 * maxMessageBytes

structure EventMessage where
  headers : List (String × String)
  payload : Bytes

/-- The bytes from `i` to `j`. -/
def slice (bytes : Bytes) (i j : ℕ) : Option Bytes :=
  if i ≤ j ∧ j ≤ bytes.length then some ((bytes.take j).drop i) else none

/-- The bytes without the first `n`. -/
def drainTo (bytes : Bytes) (n : ℕ) : Option Bytes :=
  if n ≤ bytes.length then some (bytes.drop n) else none

def checkedSub (a b : ℕ) : Option ℕ := if b ≤ a then some (a - b) else none

def readU32Be : Bytes → Option ℕ
  | b₀ :: b₁ :: b₂ :: b₃ :: _ =>
      some (b₀.toNat * 0x1000000 + b₁.toNat * 0x10000 + b₂.toNat * 0x100 + b₃.toNat)
  | _ => none

def readU16Be : Bytes → Option ℕ
  | b₀ :: b₁ :: _ => some (b₀.toNat * 0x100 + b₁.toNat)
  | _ => none

def fromUtf8Lossy (bytes : Bytes) : String := String.ofList (Utf8.lossy bytes)

/-- One round of the loop over the headers: a header and what stands behind it. -/
def parseHeader (bytes : Bytes) : Option (Except String ((String × String) × Bytes)) :=
  if bytes.length < 2 then some (.error "event-stream: truncated header")
  else do
    let nameLen := (← bytes[0]?).toNat
    let bytes ← drainTo bytes 1
    if bytes.length < nameLen + 1 then some (.error "event-stream: truncated header name")
    else
      let name := fromUtf8Lossy (← slice bytes 0 nameLen)
      let bytes ← drainTo bytes nameLen
      let valueType ← bytes[0]?
      let bytes ← drainTo bytes 1
      if valueType ≠ 7 then
        some (.error s!"event-stream: unsupported header value type {valueType.toNat}")
      else if bytes.length < 2 then
        some (.error "event-stream: truncated header value length")
      else
        let valueLen ← readU16Be (← slice bytes 0 2)
        let bytes ← drainTo bytes 2
        if bytes.length < valueLen then some (.error "event-stream: truncated header value")
        else
          let value := fromUtf8Lossy (← slice bytes 0 valueLen)
          let bytes ← drainTo bytes valueLen
          some (.ok ((name, value), bytes))

/-- The loop, for at most so many rounds. -/
def parseLoop : ℕ → List (String × String) → Bytes →
    Option (Except String (List (String × String)))
  | _, headers, [] => some (.ok headers)
  | 0, _, _ :: _ => none
  | n + 1, headers, b :: bytes =>
      match parseHeader (b :: bytes) with
      | none => none
      | some (.error e) => some (.error e)
      | some (.ok (header, rest)) => parseLoop n (headers ++ [header]) rest

def parseHeaders (bytes : Bytes) : Option (Except String (List (String × String))) :=
  parseLoop bytes.length [] bytes

/-- A checksum as it is printed. -/
def hex8 (n : ℕ) : String := String.ofList (List.leftpad 8 '0' (Nat.toDigits 16 n))

abbrev Outcome := Except String EventMessage

section Decoder

variable (crc : Bytes → UInt32)

/-- The next outcome of a buffer, if it holds one, and the buffer behind it. -/
def nextMessage (buf : Bytes) : Option (Option Outcome × Bytes) :=
  let exceeded := s!"event-stream: buffer exceeded {maxBufferBytes} bytes"
  if buf.length < 12 then
    if maxBufferBytes < buf.length then some (some (.error exceeded), []) else some (none, buf)
  else do
    let totalLen ← readU32Be (← slice buf 0 4)
    let headersLen ← readU32Be (← slice buf 4 8)
    if totalLen < 16 ∨ totalLen - 16 < headersLen then
      some (some (.error s!"event-stream: bad lengths total={totalLen} headers={headersLen}"), [])
    else
      let expected ← readU32Be (← slice buf 8 12)
      let actual := (crc (← slice buf 0 8)).toNat
      if actual ≠ expected then
        let texts := (hex8 expected, hex8 actual)
        some (some (.error
          s!"event-stream: prelude CRC mismatch expected={texts.1} actual={texts.2}"), [])
      else if maxMessageBytes < totalLen then
        some (some (.error
          s!"event-stream: message length {totalLen} exceeds max {maxMessageBytes}"), [])
      else if buf.length < totalLen then
        if maxBufferBytes < buf.length then some (some (.error exceeded), [])
        else some (none, buf)
      else
        let payloadEnd ← checkedSub totalLen 4
        let expected ← readU32Be (← slice buf payloadEnd totalLen)
        let actual := (crc (← slice buf 0 payloadEnd)).toNat
        if actual ≠ expected then
          let texts := (hex8 expected, hex8 actual)
          let rest ← drainTo buf totalLen
          some (some (.error
            s!"event-stream: message CRC mismatch expected={texts.1} actual={texts.2}"), rest)
        else
          let headersEnd := 12 + headersLen
          match ← parseHeaders (← slice buf 12 headersEnd) with
          | .error e =>
              let rest ← drainTo buf totalLen
              some (some (.error e), rest)
          | .ok headers =>
              let payload ← slice buf headersEnd payloadEnd
              let rest ← drainTo buf totalLen
              some (some (.ok { headers := headers, payload := payload }), rest)

end Decoder

/-! ### Slices in range -/

theorem slice_eq {bytes : Bytes} {i j : ℕ} (hij : i ≤ j) (hj : j ≤ bytes.length) :
    slice bytes i j = some ((bytes.take j).drop i) := if_pos ⟨hij, hj⟩

theorem slice_zero {bytes : Bytes} {j : ℕ} (hj : j ≤ bytes.length) :
    slice bytes 0 j = some (bytes.take j) := slice_eq (Nat.zero_le j) hj

theorem slice_append (a b : Bytes) : slice (a ++ b) 0 a.length = some a := by
  rw [slice_zero (by rw [List.length_append]; omega), List.take_left]

theorem drainTo_eq {bytes : Bytes} {n : ℕ} (h : n ≤ bytes.length) :
    drainTo bytes n = some (bytes.drop n) := if_pos h

theorem drainTo_append (a b : Bytes) : drainTo (a ++ b) a.length = some b := by
  rw [drainTo_eq (by rw [List.length_append]; omega), List.drop_left]

theorem drainTo_one (b : UInt8) (bytes : Bytes) : drainTo (b :: bytes) 1 = some bytes :=
  drainTo_append [b] bytes

/-- The number at a position. -/
def u32At (bytes : Bytes) (i : ℕ) : ℕ := (readU32Be (bytes.drop i)).getD 0

theorem readU32Be_take (bytes : Bytes) : readU32Be (bytes.take 4) = readU32Be bytes := by
  match bytes with
  | [] | [_] | [_, _] | [_, _, _] => rfl
  | _ :: _ :: _ :: _ :: _ => rfl

theorem readU32Be_append {bytes : Bytes} (h : 4 ≤ bytes.length) (more : Bytes) :
    readU32Be (bytes ++ more) = readU32Be bytes := by
  match bytes with
  | [] | [_] | [_, _] | [_, _, _] => simp at h
  | _ :: _ :: _ :: _ :: _ => rfl

theorem readU32Be_isSome {bytes : Bytes} (h : 4 ≤ bytes.length) :
    (readU32Be bytes).isSome = true := by
  match bytes with
  | [] | [_] | [_, _] | [_, _, _] => simp at h
  | _ :: _ :: _ :: _ :: _ => rfl

theorem read_slice {bytes : Bytes} {i j : ℕ} (hj : j = i + 4) (h : j ≤ bytes.length) :
    (slice bytes i j).bind readU32Be = some (u32At bytes i) := by
  subst hj
  obtain ⟨n, hn⟩ := Option.isSome_iff_exists.1
    (@readU32Be_isSome (bytes.drop i) (by rw [List.length_drop]; omega))
  rw [slice_eq (by omega) h, Option.bind_some, List.drop_take, Nat.add_sub_cancel_left,
    readU32Be_take]
  unfold u32At
  rw [hn, Option.getD_some]

theorem u32At_append {bytes : Bytes} {i : ℕ} (h : i + 4 ≤ bytes.length) (more : Bytes) :
    u32At (bytes ++ more) i = u32At bytes i := by
  unfold u32At
  rw [List.drop_append_of_le_length (by omega),
    readU32Be_append (by rw [List.length_drop]; omega)]

/-! ### Headers -/

theorem parseHeader_name {n t : UInt8} {name : Bytes} (hn : name.length = n.toNat)
    (rest : Bytes) :
    parseHeader (n :: (name ++ t :: rest)) =
      if t ≠ 7 then
        some (.error s!"event-stream: unsupported header value type {t.toNat}")
      else if rest.length < 2 then some (.error "event-stream: truncated header value length")
      else (do
        let valueLen ← readU16Be (← slice rest 0 2)
        let bytes ← drainTo rest 2
        if bytes.length < valueLen then some (.error "event-stream: truncated header value")
        else
          let value := fromUtf8Lossy (← slice bytes 0 valueLen)
          let bytes ← drainTo bytes valueLen
          some (.ok ((fromUtf8Lossy name, value), bytes))) := by
  have hlen : ¬ (n :: (name ++ t :: rest)).length < 2 := by
    simp only [List.length_cons, List.length_append]
    omega
  have hname : ¬ (name ++ t :: rest).length < n.toNat + 1 := by
    simp only [List.length_cons, List.length_append]
    omega
  unfold parseHeader
  rw [if_neg hlen, List.getElem?_cons_zero, Option.bind_eq_bind, Option.bind_some, drainTo_one]
  dsimp only [Option.bind_eq_bind, Option.bind_some]
  rw [if_neg hname, ← hn, slice_append, Option.bind_some, drainTo_append, Option.bind_some,
    List.getElem?_cons_zero, Option.bind_some, drainTo_one, Option.bind_some]

theorem parseHeader_value {n c d : UInt8} {name value : Bytes} (hn : name.length = n.toNat)
    (hv : value.length = c.toNat * 0x100 + d.toNat) (rest : Bytes) :
    parseHeader (n :: (name ++ 7 :: c :: d :: (value ++ rest))) =
      some (.ok ((fromUtf8Lossy name, fromUtf8Lossy value), rest)) := by
  have htwo : ¬ (c :: d :: (value ++ rest)).length < 2 := by simp
  have hlen : ¬ (value ++ rest).length < c.toNat * 0x100 + d.toNat := by
    rw [List.length_append]
    omega
  have hslice : slice (c :: d :: (value ++ rest)) 0 2 = some [c, d] :=
    slice_append [c, d] (value ++ rest)
  have hdrain : drainTo (c :: d :: (value ++ rest)) 2 = some (value ++ rest) :=
    drainTo_append [c, d] (value ++ rest)
  rw [parseHeader_name hn, if_neg (by decide), if_neg htwo, hslice, hdrain]
  simp only [Option.bind_eq_bind, Option.bind_some, readU16Be]
  rw [if_neg hlen, ← hv, slice_append, drainTo_append]
  rfl

theorem parseHeader_spec (b : UInt8) (bytes : Bytes) :
    ∃ r, parseHeader (b :: bytes) = some r ∧
      ∀ header rest, r = .ok (header, rest) → rest.length ≤ bytes.length := by
  by_cases htwo : (b :: bytes).length < 2
  · exact ⟨_, by unfold parseHeader; rw [if_pos htwo], fun _ _ h => by cases h⟩
  by_cases hname : bytes.length < b.toNat + 1
  · refine ⟨.error "event-stream: truncated header name", ?_, fun _ _ h => by cases h⟩
    unfold parseHeader
    rw [if_neg htwo]
    rw [List.getElem?_cons_zero, Option.bind_eq_bind, Option.bind_some, drainTo_one]
    dsimp only [Option.bind_eq_bind, Option.bind_some]
    rw [if_pos hname]
  -- the name, the type of the value and what stands behind it
  obtain ⟨name, t, rest, hbytes, hn⟩ : ∃ name t rest,
      bytes = name ++ t :: rest ∧ name.length = b.toNat := by
    cases hd : bytes.drop b.toNat with
    | nil =>
      have := List.drop_eq_nil_iff.1 hd
      omega
    | cons t rest =>
      refine ⟨bytes.take b.toNat, t, rest, ?_, ?_⟩
      · rw [← hd, List.take_append_drop]
      · rw [List.length_take]
        omega
  subst hbytes
  rw [parseHeader_name hn]
  by_cases ht : t ≠ 7
  · exact ⟨_, if_pos ht, fun _ _ h => by cases h⟩
  rw [if_neg ht]
  match rest with
  | [] | [_] => exact ⟨_, rfl, fun _ _ h => by cases h⟩
  | c :: d :: rest =>
    have hslice : slice (c :: d :: rest) 0 2 = some [c, d] := slice_append [c, d] rest
    have hdrain : drainTo (c :: d :: rest) 2 = some rest := drainTo_append [c, d] rest
    rw [if_neg (by simp), hslice, hdrain]
    simp only [Option.bind_eq_bind, Option.bind_some, readU16Be]
    by_cases hv : rest.length < c.toNat * 0x100 + d.toNat
    · exact ⟨_, if_pos hv, fun _ _ h => by cases h⟩
    · rw [if_neg hv, slice_zero (by omega), drainTo_eq (by omega)]
      refine ⟨_, rfl, fun header rest' h => ?_⟩
      cases h
      simp only [List.length_drop, List.length_append, List.length_cons]
      omega

theorem parseLoop_isSome {n : ℕ} {bytes : Bytes} (h : bytes.length ≤ n)
    (headers : List (String × String)) : (parseLoop n headers bytes).isSome = true := by
  induction n generalizing bytes headers with
  | zero =>
    rw [List.length_eq_zero_iff.1 (Nat.le_zero.1 h)]
    rfl
  | succ n ih =>
    cases bytes with
    | nil => rfl
    | cons b bytes =>
      obtain ⟨r, hr, hrest⟩ := parseHeader_spec b bytes
      rw [parseLoop, hr]
      cases r with
      | error e => rfl
      | ok p =>
        have := hrest p.1 p.2 rfl
        rw [List.length_cons] at h
        exact ih (by omega) _

theorem parseHeaders_isSome (bytes : Bytes) : (parseHeaders bytes).isSome = true :=
  parseLoop_isSome le_rfl []

/-- What the headers are read as. -/
def headersOf (bytes : Bytes) : Except String (List (String × String)) :=
  (parseHeaders bytes).getD (.error "")

theorem parseHeaders_eq (bytes : Bytes) : parseHeaders bytes = some (headersOf bytes) := by
  obtain ⟨r, hr⟩ := Option.isSome_iff_exists.1 (parseHeaders_isSome bytes)
  unfold headersOf
  rw [hr, Option.getD_some]

/-! ### The next message -/

section Decode

variable (crc : Bytes → UInt32)

/-- What the first twelve bytes say: the length of the message and the length of its headers. -/
def checkPrelude (buf : Bytes) : Except String (ℕ × ℕ) :=
  let totalLen := u32At buf 0
  let headersLen := u32At buf 4
  if totalLen < 16 ∨ totalLen - 16 < headersLen then
    .error s!"event-stream: bad lengths total={totalLen} headers={headersLen}"
  else
    let expected := u32At buf 8
    let actual := (crc (buf.take 8)).toNat
    if actual ≠ expected then
      let texts := (hex8 expected, hex8 actual)
      .error s!"event-stream: prelude CRC mismatch expected={texts.1} actual={texts.2}"
    else if maxMessageBytes < totalLen then
      .error s!"event-stream: message length {totalLen} exceeds max {maxMessageBytes}"
    else .ok (totalLen, headersLen)

/-- What a frame holds. -/
def openFrame (headersLen : ℕ) (frame : Bytes) : Outcome :=
  let payloadEnd := frame.length - 4
  let expected := u32At frame payloadEnd
  let actual := (crc (frame.take payloadEnd)).toNat
  if actual ≠ expected then
    let texts := (hex8 expected, hex8 actual)
    .error s!"event-stream: message CRC mismatch expected={texts.1} actual={texts.2}"
  else
    match headersOf ((frame.take (12 + headersLen)).drop 12) with
    | .error e => .error e
    | .ok headers =>
        .ok { headers := headers, payload := (frame.take payloadEnd).drop (12 + headersLen) }

/-- The next outcome of a buffer, if it holds one, and what is left.  An error of the first bytes
takes the whole buffer. -/
def decode (buf : Bytes) : Option (Outcome × Bytes) :=
  if buf.length < 12 then none
  else
    match checkPrelude crc buf with
    | .error e => some (.error e, [])
    | .ok (totalLen, headersLen) =>
        if buf.length < totalLen then none
        else some (openFrame crc headersLen (buf.take totalLen), buf.drop totalLen)

theorem checkPrelude_eq_ok {buf : Bytes} {totalLen headersLen : ℕ}
    (h : checkPrelude crc buf = .ok (totalLen, headersLen)) :
    totalLen = u32At buf 0 ∧ headersLen = u32At buf 4 ∧ 16 + headersLen ≤ totalLen ∧
      totalLen ≤ maxMessageBytes := by
  unfold checkPrelude at h
  dsimp only at h
  split_ifs at h with hlen hcrc hmax
  cases h
  exact ⟨rfl, rfl, by omega, by omega⟩

theorem u32At_take {buf : Bytes} {n i : ℕ} (hi : i + 4 ≤ n) (hn : n ≤ buf.length) :
    u32At (buf.take n) i = u32At buf i := by
  conv_rhs => rw [← List.take_append_drop n buf]
  exact (u32At_append (by rw [List.length_take]; omega) _).symm

theorem nextMessage_frame {buf : Bytes} {totalLen headersLen : ℕ}
    (hlen : 16 + headersLen ≤ totalLen) (harrived : totalLen ≤ buf.length) :
    ((checkedSub totalLen 4).bind fun payloadEnd =>
      ((slice buf payloadEnd totalLen).bind readU32Be).bind fun expected =>
        (slice buf 0 payloadEnd).bind fun sent =>
          if (crc sent).toNat ≠ expected then
            (drainTo buf totalLen).bind fun rest =>
              some (some (Except.error (
                toString "event-stream: message CRC mismatch expected=" ++
                  toString (hex8 expected) ++ toString " actual=" ++
                  toString (hex8 (crc sent).toNat))), rest)
          else
            ((slice buf 12 (12 + headersLen)).bind parseHeaders).bind fun parsed =>
              match parsed with
              | .error e =>
                  (drainTo buf totalLen).bind fun rest => some (some (Except.error e), rest)
              | .ok headers =>
                  (slice buf (12 + headersLen) payloadEnd).bind fun payload =>
                    (drainTo buf totalLen).bind fun rest =>
                      some (some (Except.ok { headers := headers, payload := payload }), rest)) =
      some (some (openFrame crc headersLen (buf.take totalLen)), buf.drop totalLen) := by
  have hsub : checkedSub totalLen 4 = some (totalLen - 4) := if_pos (by omega)
  have hframe : (buf.take totalLen).length = totalLen := by
    rw [List.length_take]
    omega
  have htake {k : ℕ} (hk : k ≤ totalLen) : (buf.take totalLen).take k = buf.take k := by
    rw [List.take_take, Nat.min_eq_left hk]
  rw [hsub, Option.bind_some, read_slice (by omega) harrived, Option.bind_some,
    slice_zero (by omega), Option.bind_some, slice_eq (by omega) (by omega), Option.bind_some,
    parseHeaders_eq, Option.bind_some, slice_eq (by omega) (by omega), drainTo_eq harrived]
  unfold openFrame
  dsimp only
  rw [hframe, u32At_take (by omega) harrived, htake (by omega), htake (by omega)]
  by_cases hcrc : (crc (buf.take (totalLen - 4))).toNat ≠ u32At buf (totalLen - 4)
  · rw [if_pos hcrc, if_pos hcrc]
    rfl
  · rw [if_neg hcrc, if_neg hcrc]
    cases headersOf ((buf.take (12 + headersLen)).drop 12) <;> rfl

/-- **The next message** is the one that the first bytes and the frame determine, and no index or
slice on the way to it is out of range. -/
theorem nextMessage_eq (buf : Bytes) :
    nextMessage crc buf =
      some (match decode crc buf with
        | none => (none, buf)
        | some (outcome, rest) => (some outcome, rest)) := by
  unfold nextMessage decode
  by_cases hshort : buf.length < 12
  · have hmax : ¬ maxBufferBytes < buf.length := by
      unfold maxBufferBytes maxMessageBytes
      omega
    rw [if_pos hshort, if_pos hshort, if_neg hmax]
  rw [if_neg hshort, if_neg hshort]
  have h₀ := @read_slice buf 0 4 rfl (by omega)
  have h₄ := @read_slice buf 4 8 rfl (by omega)
  have h₈ := @read_slice buf 8 12 rfl (by omega)
  simp only [Option.bind_eq_bind, h₀, h₄, h₈, Option.bind_some, ← Option.bind_assoc]
  by_cases hlen : u32At buf 0 < 16 ∨ u32At buf 0 - 16 < u32At buf 4
  · unfold checkPrelude
    dsimp only
    rw [if_pos hlen, if_pos hlen]
  rw [if_neg hlen, slice_zero (by omega), Option.bind_some]
  by_cases hcrc : (crc (buf.take 8)).toNat ≠ u32At buf 8
  · unfold checkPrelude
    dsimp only
    rw [if_pos hcrc, if_neg hlen, if_pos hcrc]
  rw [if_neg hcrc]
  by_cases hmax : maxMessageBytes < u32At buf 0
  · unfold checkPrelude
    dsimp only
    rw [if_pos hmax, if_neg hlen, if_neg hcrc, if_pos hmax]
  have hok : checkPrelude crc buf = .ok (u32At buf 0, u32At buf 4) := by
    unfold checkPrelude
    dsimp only
    rw [if_neg hlen, if_neg hcrc, if_neg hmax]
  rw [if_neg hmax, hok]
  dsimp only
  by_cases harrived : buf.length < u32At buf 0
  · have hbuffer : ¬ maxBufferBytes < buf.length := by
      unfold maxBufferBytes
      omega
    rw [if_pos harrived, if_pos harrived, if_neg hbuffer]
  rw [if_neg harrived, if_neg harrived, nextMessage_frame crc (by omega) (by omega)]

/-! ### The decoder -/

theorem checkPrelude_append {buf : Bytes} (h : 12 ≤ buf.length) (more : Bytes) :
    checkPrelude crc (buf ++ more) = checkPrelude crc buf := by
  unfold checkPrelude
  rw [u32At_append (by omega), u32At_append (by omega), u32At_append (by omega),
    List.take_append_of_le_length (by omega)]

theorem decode_shrinks {buf rest : Bytes} {outcome : Outcome}
    (h : decode crc buf = some (outcome, rest)) : rest.length < buf.length := by
  unfold decode at h
  by_cases hshort : buf.length < 12
  · rw [if_pos hshort] at h
    cases h
  rw [if_neg hshort] at h
  cases hp : checkPrelude crc buf with
  | error e =>
    rw [hp] at h
    cases h
    rw [List.length_nil]
    omega
  | ok p =>
    obtain ⟨totalLen, headersLen⟩ := p
    obtain ⟨-, -, hlen, -⟩ := checkPrelude_eq_ok crc hp
    rw [hp] at h
    dsimp only at h
    by_cases harrived : buf.length < totalLen
    · rw [if_pos harrived] at h
      cases h
    · rw [if_neg harrived] at h
      cases h
      rw [List.length_drop]
      omega

theorem decode_stable {buf rest : Bytes} {outcome : Outcome} (more : Bytes)
    (h : decode crc buf = some (outcome, rest)) :
    ∃ rest', decode crc (buf ++ more) = some (outcome, rest') ∧
      (outcome.isOk = true → rest' = rest ++ more) := by
  unfold decode at h ⊢
  by_cases hshort : buf.length < 12
  · rw [if_pos hshort] at h
    cases h
  have hlong : ¬ (buf ++ more).length < 12 := by
    rw [List.length_append]
    omega
  rw [if_neg hshort] at h
  rw [if_neg hlong, checkPrelude_append crc (by omega)]
  cases hp : checkPrelude crc buf with
  | error e =>
    rw [hp] at h
    cases h
    exact ⟨[], rfl, fun hok => by cases hok⟩
  | ok p =>
    rw [hp] at h
    dsimp only at h ⊢
    by_cases harrived : buf.length < p.1
    · rw [if_pos harrived] at h
      cases h
    · have hmore : ¬ (buf ++ more).length < p.1 := by
        rw [List.length_append]
        omega
      rw [if_neg harrived] at h
      cases h
      rw [if_neg hmore, List.take_append_of_le_length (by omega),
        List.drop_append_of_le_length (by omega)]
      exact ⟨_, rfl, fun _ => rfl⟩

/-- The calls of `next_message`; a call without an outcome asks for more bytes. -/
def decoder : Puller UInt8 Outcome where
  pull buf := (nextMessage crc buf).bind fun result => result.1.map fun outcome =>
    (outcome, result.2)
  isErr outcome := !outcome.isOk
  shrinks := by
    intro buf outcome rest h
    rw [nextMessage_eq] at h
    cases hd : decode crc buf with
    | none =>
      rw [hd] at h
      cases h
    | some p =>
      rw [hd] at h
      cases h
      exact decode_shrinks crc hd
  stable := by
    intro buf outcome rest more h
    rw [nextMessage_eq] at h ⊢
    cases hd : decode crc buf with
    | none =>
      rw [hd] at h
      cases h
    | some p =>
      rw [hd] at h
      cases h
      obtain ⟨rest', hd', hrest⟩ := decode_stable crc more hd
      exact ⟨rest', by rw [hd']; rfl, fun hok => hrest (by simpa using hok)⟩

theorem decoder_pull (buf : Bytes) : (decoder crc).pull buf = decode crc buf := by
  change ((nextMessage crc buf).bind fun result => result.1.map fun outcome =>
    (outcome, result.2)) = _
  rw [nextMessage_eq]
  cases decode crc buf <;> rfl

end Decode

/-! ### Framing -/

def u32Be (n : ℕ) : Bytes :=
  [UInt8.ofNat (n / 0x1000000), UInt8.ofNat (n / 0x10000), UInt8.ofNat (n / 0x100), UInt8.ofNat n]

def u16Be (n : ℕ) : Bytes := [UInt8.ofNat (n / 0x100), UInt8.ofNat n]

def utf8 (s : String) : Bytes := Utf8.encode s.toList

def encodeHeader (header : String × String) : Bytes :=
  UInt8.ofNat (utf8 header.1).length ::
    (utf8 header.1 ++ 7 :: (u16Be (utf8 header.2).length ++ utf8 header.2))

def encodeHeaders (headers : List (String × String)) : Bytes := headers.flatMap encodeHeader

def frameLength (m : EventMessage) : ℕ :=
  12 + (encodeHeaders m.headers).length + m.payload.length + 4

/-- The lengths of a message fit their fields, and the frame the size limit. -/
structure Encodable (m : EventMessage) : Prop where
  name : ∀ header ∈ m.headers, (utf8 header.1).length ≤ 255
  value : ∀ header ∈ m.headers, (utf8 header.2).length ≤ 65535
  frame : frameLength m ≤ 16 * 1024 * 1024

section Encode

variable (crc : Bytes → UInt32)

def encodeFrame (m : EventMessage) : Bytes :=
  let lengths := u32Be (frameLength m) ++ u32Be (encodeHeaders m.headers).length
  let sent := lengths ++ u32Be (crc lengths).toNat ++ encodeHeaders m.headers ++ m.payload
  sent ++ u32Be (crc sent).toNat

theorem readU32Be_u32Be {n : ℕ} (h : n < 2 ^ 32) (rest : Bytes) :
    readU32Be (u32Be n ++ rest) = some n := by
  unfold u32Be
  simp only [List.cons_append, List.nil_append, readU32Be, UInt8.toNat_ofNat']
  congr 1
  omega

theorem fromUtf8Lossy_utf8 (s : String) : fromUtf8Lossy (utf8 s) = s := by
  unfold fromUtf8Lossy utf8
  rw [Utf8.lossy_encode, String.ofList_toList]

theorem parseHeader_encode {header : String × String} (hname : (utf8 header.1).length ≤ 255)
    (hvalue : (utf8 header.2).length ≤ 65535) (rest : Bytes) :
    parseHeader (encodeHeader header ++ rest) = some (.ok (header, rest)) := by
  have hn : (utf8 header.1).length = (UInt8.ofNat (utf8 header.1).length).toNat := by
    rw [UInt8.toNat_ofNat']
    omega
  have hv : (utf8 header.2).length =
      (UInt8.ofNat ((utf8 header.2).length / 0x100)).toNat * 0x100 +
        (UInt8.ofNat (utf8 header.2).length).toNat := by
    rw [UInt8.toNat_ofNat', UInt8.toNat_ofNat']
    omega
  have h := parseHeader_value hn hv rest
  rw [fromUtf8Lossy_utf8, fromUtf8Lossy_utf8] at h
  unfold encodeHeader u16Be
  simpa only [List.cons_append, List.append_assoc, List.nil_append] using h

theorem parseLoop_encode {headers : List (String × String)}
    (hname : ∀ header ∈ headers, (utf8 header.1).length ≤ 255)
    (hvalue : ∀ header ∈ headers, (utf8 header.2).length ≤ 65535) {n : ℕ}
    (hn : (encodeHeaders headers).length ≤ n) (done : List (String × String)) :
    parseLoop n done (encodeHeaders headers) = some (.ok (done ++ headers)) := by
  induction headers generalizing n done with
  | nil =>
    rw [List.append_nil]
    exact parseLoop.eq_1 n done
  | cons header headers ih =>
    obtain ⟨hname₁, hname⟩ := List.forall_mem_cons.1 hname
    obtain ⟨hvalue₁, hvalue⟩ := List.forall_mem_cons.1 hvalue
    have hsplit : encodeHeaders (header :: headers) =
        encodeHeader header ++ encodeHeaders headers := List.flatMap_cons
    have hround := parseHeader_encode hname₁ hvalue₁ (encodeHeaders headers)
    rw [hsplit] at hn ⊢
    have hlong : 1 ≤ (encodeHeader header).length := by
      unfold encodeHeader
      rw [List.length_cons]
      omega
    cases n with
    | zero =>
      rw [List.length_append] at hn
      omega
    | succ n =>
      rw [List.length_append] at hn
      cases hbytes : encodeHeader header ++ encodeHeaders headers with
      | nil =>
        have := congrArg List.length hbytes
        rw [List.length_append, List.length_nil] at this
        omega
      | cons b bytes =>
        rw [parseLoop, ← hbytes, hround]
        dsimp only
        rw [ih hname hvalue (by omega), List.append_assoc, List.singleton_append]

theorem headersOf_encode {m : EventMessage} (h : Encodable m) :
    headersOf (encodeHeaders m.headers) = .ok m.headers := by
  unfold headersOf parseHeaders
  rw [parseLoop_encode h.name h.value le_rfl, List.nil_append, Option.getD_some]

theorem u32At_zero {n : ℕ} (h : n < 2 ^ 32) (rest : Bytes) : u32At (u32Be n ++ rest) 0 = n := by
  unfold u32At
  rw [List.drop_zero, readU32Be_u32Be h, Option.getD_some]

theorem u32At_of_append {n i : ℕ} {front : Bytes} (hi : front.length = i) (h : n < 2 ^ 32)
    (rest : Bytes) : u32At (front ++ (u32Be n ++ rest)) i = n := by
  unfold u32At
  rw [← hi, List.drop_left, readU32Be_u32Be h, Option.getD_some]

theorem length_u32Be (n : ℕ) : (u32Be n).length = 4 := rfl

/-- The lengths of a frame. -/
def framePrelude (m : EventMessage) : Bytes :=
  u32Be (frameLength m) ++ u32Be (encodeHeaders m.headers).length

/-- What the checksum of a frame is about. -/
def frameSent (m : EventMessage) : Bytes :=
  framePrelude m ++ u32Be (crc (framePrelude m)).toNat ++ encodeHeaders m.headers ++ m.payload

theorem encodeFrame_eq (m : EventMessage) :
    encodeFrame crc m = frameSent crc m ++ u32Be (crc (frameSent crc m)).toNat := rfl

theorem length_frameSent (m : EventMessage) : (frameSent crc m).length + 4 = frameLength m := by
  unfold frameSent framePrelude frameLength
  simp only [List.length_append, length_u32Be]

theorem length_encodeFrame (m : EventMessage) : (encodeFrame crc m).length = frameLength m := by
  rw [encodeFrame_eq, List.length_append, length_u32Be, length_frameSent]

theorem toNat_crc_lt (n : UInt32) : n.toNat < 2 ^ 32 := n.toNat_lt

theorem checkPrelude_encodeFrame {m : EventMessage} (h : Encodable m) (rest : Bytes) :
    checkPrelude crc (encodeFrame crc m ++ rest) =
      .ok (frameLength m, (encodeHeaders m.headers).length) := by
  have hframe := h.frame
  have hheaders : 16 + (encodeHeaders m.headers).length ≤ frameLength m := by
    unfold frameLength
    omega
  obtain ⟨tail, htail⟩ : ∃ tail, encodeFrame crc m ++ rest =
      framePrelude m ++ (u32Be (crc (framePrelude m)).toNat ++ tail) :=
    ⟨_, by rw [encodeFrame_eq, frameSent]; simp only [List.append_assoc]; rfl⟩
  have htotal : u32At (encodeFrame crc m ++ rest) 0 = frameLength m := by
    rw [htail, framePrelude, List.append_assoc]
    exact u32At_zero (by omega) _
  have hlen : u32At (encodeFrame crc m ++ rest) 4 = (encodeHeaders m.headers).length := by
    rw [htail, framePrelude, List.append_assoc]
    exact u32At_of_append rfl (by omega) _
  have hcrc : u32At (encodeFrame crc m ++ rest) 8 = (crc (framePrelude m)).toNat := by
    rw [htail]
    exact u32At_of_append rfl (toNat_crc_lt _) _
  have htake : (encodeFrame crc m ++ rest).take 8 = framePrelude m := by
    rw [htail]
    exact List.take_left' rfl
  unfold checkPrelude maxMessageBytes
  dsimp only
  rw [htotal, hlen, hcrc, htake, if_neg (by omega), if_neg (by simp), if_neg (by omega)]

theorem openFrame_encodeFrame {m : EventMessage} (h : Encodable m) :
    openFrame crc (encodeHeaders m.headers).length (encodeFrame crc m) = .ok m := by
  have hlen : (encodeFrame crc m).length - 4 = (frameSent crc m).length := by
    rw [encodeFrame_eq, List.length_append, length_u32Be]
    omega
  have hcrc : u32At (encodeFrame crc m) (frameSent crc m).length =
      (crc (frameSent crc m)).toNat := by
    have := @u32At_of_append _ _ (frameSent crc m) rfl (toNat_crc_lt (crc (frameSent crc m))) []
    rwa [List.append_nil] at this
  have hsent : (encodeFrame crc m).take (frameSent crc m).length = frameSent crc m := List.take_left
  have hfront : (framePrelude m ++ u32Be (crc (framePrelude m)).toNat).length = 12 := rfl
  have hheaders : ((encodeFrame crc m).take (12 + (encodeHeaders m.headers).length)).drop 12 =
      encodeHeaders m.headers := by
    rw [← hfront, List.drop_take, Nat.add_sub_cancel_left, encodeFrame_eq, frameSent]
    simp only [List.append_assoc]
    rw [← List.append_assoc, List.drop_left, List.take_left]
  have hpayload : (frameSent crc m).drop (12 + (encodeHeaders m.headers).length) = m.payload := by
    rw [← hfront, ← List.length_append, frameSent, List.drop_left]
  unfold openFrame
  dsimp only
  rw [hlen, hcrc, hsent, if_neg (by simp), hheaders, headersOf_encode h, hpayload]

/-- **A framed message is the next message**, whatever stands behind it. -/
theorem decode_encodeFrame {m : EventMessage} (h : Encodable m) (rest : Bytes) :
    decode crc (encodeFrame crc m ++ rest) = some (.ok m, rest) := by
  have hlen := length_encodeFrame crc m
  have hlong : 16 ≤ frameLength m := by
    unfold frameLength
    omega
  have htotal : (encodeFrame crc m ++ rest).length = frameLength m + rest.length := by
    rw [List.length_append, hlen]
  unfold decode
  rw [if_neg (by omega), checkPrelude_encodeFrame crc h]
  dsimp only
  rw [if_neg (by omega), ← hlen, List.take_left, List.drop_left, openFrame_encodeFrame crc h]

end Encode

/-! ### Streams -/

/-- Decoding inverts framing under any chunking, no call is out of range, and on any bytes the
outcomes up to the first error do not depend on the chunks. -/
theorem eventStream_decodes (crc : Bytes → UInt32) :
    (∀ (ms : List EventMessage) (chunks : List Bytes), (∀ m ∈ ms, Encodable m) →
        chunks.flatten = ms.flatMap (encodeFrame crc) →
        (decoder crc).feed [] chunks = (ms.map Except.ok, [])) ∧
      (∀ buf, ∃ outcome rest, nextMessage crc buf = some (outcome, rest) ∧
        (outcome = none → rest = buf)) ∧
      ∀ chunks chunks' : List Bytes, chunks.flatten = chunks'.flatten →
        (decoder crc).upTo ((decoder crc).feed [] chunks).1 =
          (decoder crc).upTo ((decoder crc).feed [] chunks').1 := by
  have hnil : (decoder crc).pull [] = none := by
    rw [decoder_pull]
    rfl
  refine ⟨fun ms chunks hms hchunks => ?_, fun buf => ?_, fun chunks chunks' h => ?_⟩
  · have hdrain : (decoder crc).drain (ms.flatMap (encodeFrame crc)) = (ms.map Except.ok, []) :=
      (decoder crc).drain_flatMap (fun m hm rest => by
        rw [decoder_pull, decode_encodeFrame crc (hms m hm)]) hnil
    have hgood : (decoder crc).Good ((decoder crc).drain ([] ++ chunks.flatten)).1 := by
      rw [List.nil_append, hchunks, hdrain]
      intro outcome houtcome
      obtain ⟨m, -, rfl⟩ := List.mem_map.1 houtcome
      rfl
    rw [(decoder crc).feed_of_good hnil chunks hgood, List.nil_append, hchunks, hdrain]
  · rw [nextMessage_eq]
    cases decode crc buf with
    | none => exact ⟨none, buf, rfl, fun _ => rfl⟩
    | some p => exact ⟨some p.1, p.2, rfl, fun h => by cases h⟩
  · rw [(decoder crc).feed_upTo hnil, (decoder crc).feed_upTo hnil, h]

/-- The reflected polynomial division of one byte. -/
def crcRounds : ℕ → UInt32 → UInt32
  | 0, c => c
  | n + 1, c => crcRounds n (if c &&& 1 = 1 then (c >>> 1) ^^^ 0xEDB88320 else c >>> 1)

/-- CRC-32. -/
def crc32 (bytes : Bytes) : UInt32 :=
  bytes.foldl (fun c b => crcRounds 8 (c ^^^ b.toUInt32)) 0xFFFFFFFF ^^^ 0xFFFFFFFF

/-- Two messages, the first one cut inside its prelude. -/
theorem eventStream_decodes_two :
    (decoder crc32).feed []
        [(encodeFrame crc32 ⟨[(":event-type", "chunk")], [1, 2]⟩).take 5,
          (encodeFrame crc32 ⟨[(":event-type", "chunk")], [1, 2]⟩).drop 5 ++
            encodeFrame crc32 ⟨[], []⟩] =
      ([.ok ⟨[(":event-type", "chunk")], [1, 2]⟩, .ok ⟨[], []⟩], []) :=
  (eventStream_decodes crc32).1 [⟨[(":event-type", "chunk")], [1, 2]⟩, ⟨[], []⟩] _
    (by
      intro m hm
      rcases List.mem_pair.1 hm with rfl | rfl
      · exact ⟨by decide, by decide, by decide⟩
      · exact ⟨by decide, by decide, by decide⟩)
    (by simp [← List.append_assoc])

theorem length_of_decode_none (crc : Bytes → UInt32) {buf : Bytes} (h : decode crc buf = none) :
    buf.length < maxMessageBytes := by
  unfold decode at h
  by_cases hshort : buf.length < 12
  · unfold maxMessageBytes
    omega
  rw [if_neg hshort] at h
  cases hp : checkPrelude crc buf with
  | error e =>
    rw [hp] at h
    cases h
  | ok p =>
    rw [hp] at h
    have hlimit := checkPrelude_eq_ok crc hp
    by_cases harrived : buf.length < p.1
    · omega
    · dsimp only at h
      rw [if_neg harrived] at h
      cases h

/-- **The decoder holds back less than one message**, whatever bytes arrive in whatever chunks. -/
theorem length_feed_lt (crc : Bytes → UInt32) (chunks : List Bytes) :
    ((decoder crc).feed [] chunks).2.length < maxMessageBytes := by
  have hheld : ∀ buf : Bytes, buf.length < maxMessageBytes →
      ((decoder crc).feed buf chunks).2.length < maxMessageBytes := by
    induction chunks with
    | nil => exact fun buf hbuf => hbuf
    | cons chunk chunks ih =>
      intro buf _
      have hnone := (decoder crc).pull_drain (buf ++ chunk)
      rw [decoder_pull] at hnone
      exact ih _ (length_of_decode_none crc hnone)
  exact hheld [] (by decide)

end EventStream

end Switchback
