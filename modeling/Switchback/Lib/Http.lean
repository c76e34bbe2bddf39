import Switchback.Lib.Text
import Switchback.Lib.Utf8

/-!
# HTTP/1.1 requests

The grammar of requests, as a sender writes them.

Text is a list of characters, and a message head is UTF-8.
-/

namespace Lib

namespace Http

/-- Text, character by character. -/
abbrev Text := List Char

abbrev Bytes := List UInt8

/-- The end of a line. -/
def crlf : Bytes := [13, 10]

/-- The bytes of text. -/
def bytes (t : Text) : Bytes := Utf8.encode t

/-- Text in lower case, outside ASCII as it is. -/
def lower (t : Text) : Text := t.map Char.toLower

/-! ### Requests -/

/-- The characters of a token. -/
def isTokenChar (c : Char) : Bool := c.isAlphanum || "!#$%&'*+-.^_`|~".toList.contains c

/-- Optional white space. -/
def isOws (c : Char) : Bool := c = ' ' || c = '\t'

/-- A field line, with the white space around its value. -/
structure Field where
  name : Text
  lead : Text
  value : Text
  trail : Text

/-- A field line is well formed: the name is a token, and the value has no control characters and
neither begins nor ends with optional white space. -/
structure Field.Ok (f : Field) : Prop where
  name_ne : f.name ≠ []
  name_token : ∀ c ∈ f.name, isTokenChar c = true
  lead_ows : ∀ c ∈ f.lead, isOws c = true
  trail_ows : ∀ c ∈ f.trail, isOws c = true
  value_chars : ∀ c ∈ f.value, c = '\t' ∨ (' ' ≤ c ∧ c.toNat ≠ 127)
  value_first : ∀ c, f.value.head? = some c → isOws c = false
  value_last : ∀ c, f.value.getLast? = some c → isOws c = false

def Field.line (f : Field) : Text := f.name ++ ':' :: (f.lead ++ f.value ++ f.trail)

/-- A chunk: its size line, with extensions, and its data. -/
structure Chunk where
  line : Text
  data : Bytes

/-- How the body of a request is framed. -/
inductive Framing
  | none
  | length (body : Bytes)
  | chunked (chunks : List Chunk) (last : Text) (trailers : List Field)

/-- A request. -/
structure Message where
  method : Text
  target : Text
  fields : List Field
  framing : Framing

/-- The value of a hexadecimal digit. -/
def hexValue (c : Char) : Option ℕ :=
  if c.isDigit then some (c.toNat - 48)
  else if 'a' ≤ c ∧ c ≤ 'f' then some (c.toNat - 87)
  else if 'A' ≤ c ∧ c ≤ 'F' then some (c.toNat - 55)
  else Option.none

/-- The hexadecimal number at the front of text, if it begins with a digit. -/
def hexNumber (t : Text) : Option ℕ :=
  let digits := t.takeWhile fun c => (hexValue c).isSome
  if digits = [] then Option.none
  else some (digits.foldl (fun n c => 16 * n + (hexValue c).getD 0) 0)

/-- The decimal number that text spells, if it is digits only. -/
def decimal (t : Text) : Option ℕ :=
  if t ≠ [] ∧ t.all Char.isDigit then some (t.foldl (fun n c => 10 * n + (c.toNat - 48)) 0)
  else Option.none

/-- A line without line ends in it. -/
def IsLine (t : Text) : Prop := ∀ c ∈ t, c ≠ '\r' ∧ c ≠ '\n'

/-- A chunk line is well formed: a size, and perhaps extensions behind a semicolon. -/
structure ChunkLine (t : Text) (size : ℕ) : Prop where
  size : hexNumber t = some size
  extension : ∀ c,
    ((t.dropWhile fun c => (hexValue c).isSome).dropWhile isOws).head? = some c → c = ';'
  line : IsLine t

/-- A chunk is well formed: its line says the size of its data, which is not zero. -/
structure Chunk.Ok (k : Chunk) : Prop where
  line : ChunkLine k.line k.data.length
  data_ne : k.data ≠ []

/-- Text without the optional white space around it. -/
def trimOws (t : Text) : Text := ((t.dropWhile isOws).reverse.dropWhile isOws).reverse

/-- The last of the codings that a field value lists. -/
def lastCoding (value : Text) : Text := lower (trimOws ((value.splitOnP (· = ',')).getLastD []))

/-- The fields with a name. -/
def Message.named (m : Message) (name : Text) : List Field :=
  m.fields.filter fun f => lower f.name = name

/-- The framing is the one that the fields announce. -/
def Message.Framed (m : Message) : Prop :=
  match m.framing with
  | .none => m.named "content-length".toList = [] ∧ m.named "transfer-encoding".toList = []
  | .length body =>
    (∃ f, m.named "content-length".toList = [f] ∧ decimal f.value = some body.length) ∧
      m.named "transfer-encoding".toList = []
  | .chunked chunks last trailers =>
    m.named "content-length".toList = [] ∧
      (∃ f, (m.named "transfer-encoding".toList).getLast? = some f ∧
        lastCoding f.value = "chunked".toList) ∧
      (∀ k ∈ chunks, k.Ok) ∧ ChunkLine last 0 ∧ ∀ f ∈ trailers, f.Ok

/-- A request is well formed. -/
structure Message.Ok (m : Message) : Prop where
  method_ne : m.method ≠ []
  method_token : ∀ c ∈ m.method, isTokenChar c = true
  target_ne : m.target ≠ []
  target_visible : ∀ c ∈ m.target, '!' ≤ c ∧ c ≤ '~'
  fields : ∀ f ∈ m.fields, f.Ok
  framed : m.Framed

/-- The lines of a head. -/
def Message.lines (m : Message) : List Text :=
  (m.method ++ ' ' :: (m.target ++ " HTTP/1.1".toList)) :: m.fields.map Field.line

/-- Lines, each with its end. -/
def linesBytes (ls : List Text) : Bytes := ls.flatMap fun l => bytes l ++ crlf

/-- The head with its empty line. -/
def Message.head (m : Message) : Bytes := linesBytes m.lines ++ crlf

/-- A chunk on the wire. -/
def Chunk.wire (k : Chunk) : Bytes := bytes k.line ++ crlf ++ k.data ++ crlf

/-- The body on the wire. -/
def Framing.wire : Framing → Bytes
  | .none => []
  | .length body => body
  | .chunked chunks last trailers =>
    chunks.flatMap Chunk.wire ++ (bytes last ++ crlf) ++ linesBytes (trailers.map Field.line) ++ crlf

/-- The body. -/
def Framing.body : Framing → Bytes
  | .none => []
  | .length body => body
  | .chunked chunks _ _ => chunks.flatMap Chunk.data

/-- The bytes of a request. -/
def Message.wire (m : Message) : Bytes := m.head ++ m.framing.wire

/-! ### Lines -/

theorem bytes_append (a b : Text) : bytes (a ++ b) = bytes a ++ bytes b := Utf8.encode_append a b

theorem bytes_crlf : bytes "\r\n".toList = crlf := by decide

theorem not_mem_bytes_cr {t : Text} (h : ∀ c ∈ t, c ≠ '\r') : (13 : UInt8) ∉ bytes t := by
  intro hmem
  obtain ⟨c, hc, heq⟩ := Utf8.mem_encode_ascii hmem (by decide)
  refine h c hc ?_
  rw [← Char.ofNat_toNat c, heq]
  decide

theorem bytes_ne_nil {t : Text} (h : t ≠ []) : bytes t ≠ [] := by
  cases t with
  | nil => exact absurd rfl h
  | cons c t =>
    rw [bytes, Utf8.encode_cons]
    simp [String.utf8EncodeChar_ne_nil]

/-- A line that can stand in a head. -/
structure HeadLine (t : Text) : Prop where
  ne_nil : t ≠ []
  line : IsLine t

theorem linesBytes_cons (l : Text) (ls : List Text) :
    linesBytes (l :: ls) = bytes l ++ (crlf ++ linesBytes ls) := by
  simp [linesBytes]

theorem lines_blank {ls : List Text} (h : ∀ l ∈ ls, HeadLine l) {y : Bytes}
    (heq : linesBytes ls ++ crlf = crlf ++ y) : y = [] := by
  cases ls with
  | nil => simpa [linesBytes] using heq.symm
  | cons l ls =>
    have hl := h l List.mem_cons_self
    have hcr : (13 : UInt8) ∉ bytes l := not_mem_bytes_cr fun c hc => (hl.line c hc).1
    rw [linesBytes_cons] at heq
    cases hb : bytes l with
    | nil => exact absurd hb (bytes_ne_nil hl.ne_nil)
    | cons b bs =>
      rw [hb] at heq hcr
      simp only [crlf, List.cons_append] at heq
      obtain ⟨rfl, -⟩ := List.cons.inj heq
      simp at hcr

/-- **The first empty line of a head is its last line.** -/
theorem lines_no_early_end {ls : List Text} (h : ∀ l ∈ ls, HeadLine l) {x y : Bytes}
    (heq : linesBytes ls ++ crlf = x ++ (crlf ++ crlf ++ y)) : y = [] := by
  induction ls generalizing x with
  | nil =>
    have := congrArg List.length heq
    simp [linesBytes, crlf] at this
    omega
  | cons l ls ih =>
    obtain ⟨hl, hls⟩ := List.forall_mem_cons.1 h
    have hcr : (13 : UInt8) ∉ bytes l := not_mem_bytes_cr fun c hc => (hl.line c hc).1
    rw [linesBytes_cons, List.append_assoc] at heq
    rcases List.append_eq_append_iff.1 heq with ⟨a, rfl, hrest⟩ | ⟨a, hsplit, hrest⟩
    · -- the end of the head begins behind the line: at its line end, or later
      match a with
      | [] =>
        simp only [List.nil_append, List.append_assoc, List.append_cancel_left_eq] at hrest
        exact lines_blank hls hrest
      | [c] =>
        simp only [crlf, List.cons_append, List.nil_append] at hrest
        have h2 := (List.cons.inj (List.cons.inj hrest).2).1
        cases h2
      | c :: d :: a =>
        simp only [crlf, List.cons_append, List.nil_append] at hrest
        exact ih hls (by simpa [crlf] using (List.cons.inj (List.cons.inj hrest).2).2)
    · -- the end of the head begins inside the line, which has no carriage return
      cases a with
      | nil =>
        simp only [List.nil_append, List.append_assoc, List.append_cancel_left_eq] at hrest
        exact lines_blank hls hrest.symm
      | cons c a =>
        simp only [crlf, List.cons_append] at hrest
        obtain ⟨rfl, -⟩ := List.cons.inj hrest
        rw [hsplit] at hcr
        simp at hcr

/-! ### Characters -/

/-- What is checked of the characters of a text holds of each of them. -/
theorem forall_chars {P : Char → Prop} [DecidablePred P] {l : List Char}
    (h : (l.all fun c => decide (P c)) = true) : ∀ c ∈ l, P c := by
  intro c hc
  exact of_decide_eq_true (List.all_eq_true.1 h c hc)

theorem toNat_of_token {c : Char} (h : isTokenChar c = true) :
    33 ≤ c.toNat ∧ c.toNat ≤ 126 ∧ c.toNat ≠ 58 := by
  rw [isTokenChar, Bool.or_eq_true] at h
  rcases h with h | h
  · unfold Char.isAlphanum Char.isAlpha Char.isUpper Char.isLower Char.isDigit at h
    simp only [Bool.or_eq_true, Bool.and_eq_true, decide_eq_true_eq, ge_iff_le, UInt32.le_iff_toNat_le] at h
    have hc : c.val.toNat = c.toNat := rfl
    have hA : 'A'.val.toNat = 65 := rfl
    have hZ : 'Z'.val.toNat = 90 := rfl
    have ha : 'a'.val.toNat = 97 := rfl
    have hz : 'z'.val.toNat = 122 := rfl
    have h0 : '0'.val.toNat = 48 := rfl
    have h9 : '9'.val.toNat = 57 := rfl
    omega
  · have hall : ∀ d ∈ "!#$%&'*+-.^_`|~".toList, 33 ≤ d.toNat ∧ d.toNat ≤ 126 ∧ d.toNat ≠ 58 :=
      forall_chars rfl
    exact hall c (by simpa using h)

/-- Visible ASCII is no white space. -/
theorem not_whiteSpace {c : Char} (h : 33 ≤ c.toNat ∧ c.toNat ≤ 126) :
    Text.isWhiteSpace c = false := by
  simp only [Text.isWhiteSpace, decide_eq_false_iff_not]
  omega

/-- Visible ASCII ends no line. -/
theorem not_lineEnd {c : Char} (h : 14 ≤ c.toNat) : c ≠ '\r' ∧ c ≠ '\n' := by
  constructor
  · rintro rfl
    exact absurd h (by decide)
  · rintro rfl
    exact absurd h (by decide)

theorem isOws_cases {c : Char} (h : isOws c = true) : c = ' ' ∨ c = '\t' := by
  simpa [isOws] using h

theorem splitOnce_colon {name : Text} (h : ∀ c ∈ name, c ≠ ':') (rest : Text) :
    Text.splitOnceList [':'] (name ++ ':' :: rest) = some (name, rest) := by
  induction name with
  | nil => rfl
  | cons c name ih =>
    obtain ⟨hc, hname⟩ := List.forall_mem_cons.1 h
    have hstrip : ∀ l, Text.stripPrefixList [':'] (c :: l) = none := by
      intro l
      simp [Text.stripPrefixList, Ne.symm hc]
    rw [List.cons_append, Text.splitOnceList, hstrip, ih hname]
    rfl

theorem IsLine.append {a b : Text} (ha : IsLine a) (hb : IsLine b) : IsLine (a ++ b) :=
  List.forall_mem_append.2 ⟨ha, hb⟩

theorem isLine_token {t : Text} (h : ∀ c ∈ t, isTokenChar c = true) : IsLine t := by
  intro c hc
  have := toNat_of_token (h c hc)
  exact not_lineEnd (by omega)

theorem isLine_ows {t : Text} (h : ∀ c ∈ t, isOws c = true) : IsLine t := by
  intro c hc
  rcases isOws_cases (h c hc) with rfl | rfl <;> decide

theorem Field.Ok.line_isLine {f : Field} (h : f.Ok) : IsLine f.line := by
  refine (isLine_token h.name_token).append (List.forall_mem_cons.2 ⟨by decide, ?_⟩)
  refine ((isLine_ows h.lead_ows).append ?_).append (isLine_ows h.trail_ows)
  intro c hc
  rcases h.value_chars c hc with rfl | ⟨hle, -⟩
  · decide
  · have : 32 ≤ c.toNat := hle
    exact not_lineEnd (by omega)

theorem Message.Ok.headLines {m : Message} (h : m.Ok) : ∀ l ∈ m.lines, HeadLine l := by
  refine List.forall_mem_cons.2 ⟨⟨?_, ?_⟩, ?_⟩
  · simp [h.method_ne]
  · refine (isLine_token h.method_token).append (List.forall_mem_cons.2 ⟨by decide, ?_⟩)
    refine IsLine.append ?_ (forall_chars rfl)
    intro c hc
    have : 33 ≤ c.toNat := (h.target_visible c hc).1
    exact not_lineEnd (by omega)
  · intro l hl
    obtain ⟨f, hf, rfl⟩ := List.mem_map.1 hl
    exact ⟨by simp [Field.line], (h.fields f hf).line_isLine⟩

end Http

end Lib
