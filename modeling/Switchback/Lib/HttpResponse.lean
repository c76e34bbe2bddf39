import Mathlib.Data.List.TakeWhile
import Switchback.Lib.Http

/-!
# A reader of HTTP/1.1 responses

The client's side of a connection: a machine that is fed the bytes of one response and is at every
byte inside the message, at its end or lost.
-/

namespace Lib

namespace Http

/-! ### The machine -/

/-- What the fields of a head say about the body. -/
structure BodyInfo where
  chunked : Bool
  length : Option ℕ
  deriving DecidableEq

/-- The kinds of lines in a response. -/
inductive LineKind
  | status
  | field (status : ℕ) (info : BodyInfo)
  | size
  | dataEnd
  | trailer
  deriving DecidableEq

/-- Where the reader is: inside a line of some kind, inside the data of a chunk or a body of known
length, in a body that ends with the connection, at the end of the message, or lost. -/
inductive Phase
  | line (kind : LineKind) (acc : Bytes)
  | data (left : ℕ)
  | body (left : ℕ)
  | untilClose
  | done
  | bad
  deriving DecidableEq

/-- The characters of a line, byte by byte. -/
def latin (line : Bytes) : Text := line.map fun b => Char.ofNat b.toNat

/-- The status that a status line gives. -/
def statusOf (t : Text) : Option ℕ :=
  match Text.stripPrefixList "HTTP/1.1 ".toList t with
  | some (a :: b :: c :: ' ' :: _) => decimal [a, b, c]
  | _ => none

/-- The name and the value of a field line. -/
def fieldOf (t : Text) : Option (Text × Text) :=
  match Text.splitOnceList [':'] t with
  | some (name, value) =>
    if name ≠ [] ∧ name.all isTokenChar then some (lower name, trimOws value) else none
  | none => none

/-- What one more field says about the body, if it makes sense. -/
def BodyInfo.add (info : BodyInfo) (name value : Text) : Option BodyInfo :=
  if name = "transfer-encoding".toList then
    if lower value = "chunked".toList then some { info with chunked := true } else none
  else if name = "content-length".toList then
    match info.length, decimal value with
    | none, some n => some { info with length := some n }
    | _, _ => none
  else some info

/-- The size that the line of a chunk gives. -/
def chunkSize (t : Text) : Option ℕ :=
  match t.dropWhile fun c => (hexValue c).isSome with
  | [] => hexNumber t
  | c :: _ => if c = ';' then hexNumber t else none

/-- Counted bytes of a body. -/
def bodyPhase : ℕ → Phase
  | 0 => .done
  | n + 1 => .body (n + 1)

section Feed

variable (bodyless : ℕ → Bool)

/-- Behind the empty line of a head. -/
def afterHead (status : ℕ) (info : BodyInfo) : Phase :=
  if bodyless status then .done
  else if info.chunked then .line .size []
  else
    match info.length with
    | some n => bodyPhase n
    | none => .untilClose

/-- Behind a line. -/
def lineDone : LineKind → Bytes → Phase
  | .status, l =>
    match statusOf (latin l) with
    | some s => .line (.field s ⟨false, none⟩) []
    | none => .bad
  | .field s info, l =>
    if l = [] then afterHead bodyless s info
    else
      match fieldOf (latin l) with
      | some (name, value) =>
        match info.add name value with
        | some info' => .line (.field s info') []
        | none => .bad
      | none => .bad
  | .size, l =>
    match chunkSize (latin l) with
    | some 0 => .line .trailer []
    | some (n + 1) => .data (n + 1)
    | none => .bad
  | .dataEnd, l => if l = [] then .line .size [] else .bad
  | .trailer, l =>
    if l = [] then .done
    else if (fieldOf (latin l)).isSome then .line .trailer [] else .bad

/-- A byte with which no line of the kind begins. -/
def badStart : LineKind → UInt8 → Bool
  | .status, b => b ≠ 72
  | .size, b => !(hexValue (Char.ofNat b.toNat)).isSome
  | _, _ => false

/-- One more byte. -/
def feed : Phase → UInt8 → Phase
  | .line kind acc, b =>
    if acc = [] ∧ badStart kind b then .bad
    else if crlf <:+ acc ++ [b] then lineDone bodyless kind acc.dropLast
    else .line kind (acc ++ [b])
  | .data n, _ => if n ≤ 1 then .line .dataEnd [] else .data (n - 1)
  | .body n, _ => if n ≤ 1 then .done else .body (n - 1)
  | .untilClose, _ => .untilClose
  | .done, _ => .bad
  | .bad, _ => .bad

/-- The reader behind bytes of a response. -/
def receive (bs : Bytes) : Phase := bs.foldl (feed bodyless) (.line .status [])

/-- The bytes are one message. -/
def Complete (bs : Bytes) : Prop := receive bodyless bs = .done

/-- The bytes stop inside a message. -/
def Truncated (bs : Bytes) : Prop := receive bodyless bs ≠ .done ∧ receive bodyless bs ≠ .bad

instance (bs : Bytes) : Decidable (Complete bodyless bs) := inferInstanceAs (Decidable (_ = _))

instance (bs : Bytes) : Decidable (Truncated bodyless bs) := inferInstanceAs (Decidable (_ ∧ _))

/-! ### Reading on -/

variable {bodyless}

theorem foldl_feed_bad (bs : Bytes) : bs.foldl (feed bodyless) .bad = .bad := by
  induction bs with
  | nil => rfl
  | cons b bs ih => exact ih

theorem foldl_feed_done {bs : Bytes} (h : bs ≠ []) : bs.foldl (feed bodyless) .done = .bad := by
  cases bs with
  | nil => exact absurd rfl h
  | cons b bs => exact foldl_feed_bad bs

theorem receive_append (a b : Bytes) :
    receive bodyless (a ++ b) = b.foldl (feed bodyless) (receive bodyless a) :=
  List.foldl_append

/-- **What comes before the end of a message stops inside it.** -/
theorem Complete.truncated {a b : Bytes} (h : Complete bodyless (a ++ b)) (hb : b ≠ []) :
    Truncated bodyless a := by
  unfold Complete at h
  rw [receive_append] at h
  constructor
  · intro hdone
    rw [hdone, foldl_feed_done hb] at h
    cases h
  · intro hbad
    rw [hbad, foldl_feed_bad] at h
    cases h

/-- What comes behind a message spoils it. -/
theorem Complete.lost {a b : Bytes} (h : Complete bodyless a) (hb : b ≠ []) :
    receive bodyless (a ++ b) = .bad := by
  rw [receive_append, h, foldl_feed_done hb]

theorem feed_line {kind : LineKind} {l : Bytes} (hcr : (13 : UInt8) ∉ l)
    (hstart : ∀ b, (l ++ crlf).head? = some b → badStart kind b = false) :
    (l ++ crlf).foldl (feed bodyless) (.line kind []) = lineDone bodyless kind l := by
  -- the bytes of the line are collected
  have hcollect : ∀ (rest acc : Bytes), (13 : UInt8) ∉ acc → (13 : UInt8) ∉ rest →
      (∀ b, acc = [] → (rest ++ crlf).head? = some b → badStart kind b = false) →
      (rest ++ crlf).foldl (feed bodyless) (.line kind acc) = lineDone bodyless kind (acc ++ rest) := by
    intro rest
    induction rest with
    | nil =>
      intro acc hacc _ hb
      have h1 : feed bodyless (.line kind acc) 13 = .line kind (acc ++ [13]) := by
        rw [feed, if_neg, if_neg]
        · rintro ⟨u, hu⟩
          have := congrArg List.getLast? hu
          simp [crlf] at this
        · rintro ⟨rfl, hbad⟩
          rw [hb 13 rfl rfl] at hbad
          cases hbad
      have h2 : feed bodyless (.line kind (acc ++ [13])) 10 = lineDone bodyless kind acc := by
        rw [feed, if_neg (by simp), if_pos ⟨acc, by simp [crlf]⟩, List.dropLast_concat]
      rw [List.nil_append, List.append_nil]
      simp only [crlf, List.foldl_cons, List.foldl_nil, h1, h2]
    | cons b rest ih =>
      intro acc hacc hrest hb
      have hb13 : b ≠ 13 := fun h => hrest (by simp [h])
      have h1 : feed bodyless (.line kind acc) b = .line kind (acc ++ [b]) := by
        rw [feed, if_neg, if_neg]
        · -- a line end needs a carriage return before
          rintro ⟨u, hu⟩
          have hu' : (u ++ [13]) ++ [10] = acc ++ [b] := by simpa [crlf] using hu
          have := (List.append_inj' hu' rfl).1
          exact hacc (by simp [← this])
        · rintro ⟨rfl, hbad⟩
          rw [hb b rfl rfl] at hbad
          cases hbad
      rw [List.cons_append, List.foldl_cons, h1, ih (acc ++ [b])]
      · simp
      · simp only [List.mem_append, List.mem_singleton, not_or]
        exact ⟨hacc, fun h => hb13 h.symm⟩
      · exact fun h => hrest (List.mem_cons_of_mem _ h)
      · intro c hnil
        simp at hnil
  simpa using hcollect l [] (by simp) hcr (fun b _ hb => hstart b hb)

theorem feed_data {bs : Bytes} (h : bs ≠ []) :
    bs.foldl (feed bodyless) (.data bs.length) = .line .dataEnd [] := by
  induction bs with
  | nil => exact absurd rfl h
  | cons b bs ih =>
    rw [List.foldl_cons, feed]
    cases bs with
    | nil => rfl
    | cons c bs =>
      rw [if_neg (by simp), List.length_cons, Nat.add_sub_cancel]
      exact ih (by simp)

theorem feed_body (bs : Bytes) : bs.foldl (feed bodyless) (bodyPhase bs.length) = .done := by
  have hcount : ∀ bs : Bytes, bs ≠ [] → bs.foldl (feed bodyless) (.body bs.length) = .done := by
    intro bs h
    induction bs with
    | nil => exact absurd rfl h
    | cons b bs ih =>
      rw [List.foldl_cons, feed]
      cases bs with
      | nil => rfl
      | cons c bs =>
        rw [if_neg (by simp), List.length_cons, Nat.add_sub_cancel]
        exact ih (by simp)
  cases bs with
  | nil => rfl
  | cons b bs => exact hcount (b :: bs) (by simp)

end Feed

/-! ### What a sender writes -/

theorem bytes_cons_ascii {c : Char} (h : c.toNat < 128) (t : Text) :
    ∃ b : UInt8, Char.ofNat b.toNat = c ∧ bytes (c :: t) = b :: bytes t := by
  have hval : c.val.toNat ≤ 0x7f := by
    have h0 : c.val.toNat = c.toNat := rfl
    omega
  have hb : (UInt8.ofNat c.toNat).toNat = c.toNat := by
    rw [UInt8.toNat_ofNat']
    omega
  refine ⟨UInt8.ofNat c.toNat, by rw [hb, Char.ofNat_toNat], ?_⟩
  rw [bytes, Utf8.encode_cons, String.utf8EncodeChar, if_pos hval]
  rfl

/-- ASCII text is read as it was written. -/
theorem latin_bytes {t : Text} (h : ∀ c ∈ t, c.toNat < 128) : latin (bytes t) = t := by
  induction t with
  | nil => rfl
  | cons c t ih =>
    obtain ⟨hc, ht⟩ := List.forall_mem_cons.1 h
    obtain ⟨b, hb, hbytes⟩ := bytes_cons_ascii hc t
    have hrest := ih ht
    simp only [latin] at hrest
    rw [hbytes, latin, List.map_cons, hb, hrest]

theorem hexValue_digitChar {d : ℕ} (h : d < 16) : hexValue (Nat.digitChar d) = some d := by
  revert h
  revert d
  decide

theorem foldl_hexValue_toDigits (n : ℕ) :
    (∀ c ∈ Nat.toDigits 16 n, (hexValue c).isSome) ∧
      (Nat.toDigits 16 n).foldl (fun n c => 16 * n + (hexValue c).getD 0) 0 = n := by
  induction n using Nat.strongRecOn with
  | ind n ih =>
    by_cases hlt : n < 16
    · rw [Nat.toDigits_of_lt_base hlt]
      simp [hexValue_digitChar hlt]
    · obtain ⟨hall, hfold⟩ := ih (n / 16) (by omega)
      have hd := hexValue_digitChar (Nat.mod_lt n (by decide : 0 < 16))
      rw [Nat.toDigits_of_base_le (by decide) (by omega)]
      refine ⟨?_, ?_⟩
      · intro c hc
        rcases List.mem_append.1 hc with hc | hc
        · exact hall c hc
        · rw [List.mem_singleton.1 hc, hd]
          rfl
      · rw [List.foldl_append, hfold]
        simp only [List.foldl_cons, List.foldl_nil, hd, Option.getD_some]
        omega

theorem toNat_of_hexValue {c : Char} (h : (hexValue c).isSome) : 33 ≤ c.toNat ∧ c.toNat ≤ 126 := by
  by_contra hcon
  have h0 : c.isDigit = false := by
    rw [← Bool.not_eq_true]
    simp only [Char.isDigit, Bool.and_eq_true, decide_eq_true_eq, ge_iff_le, UInt32.le_iff_toNat_le]
    have hc : c.val.toNat = c.toNat := rfl
    have h0 : '0'.val.toNat = 48 := rfl
    have h9 : '9'.val.toNat = 57 := rfl
    omega
  have hle : ∀ d : Char, d ≤ c ↔ d.toNat ≤ c.toNat := fun d => Iff.rfl
  have hge : ∀ d : Char, c ≤ d ↔ c.toNat ≤ d.toNat := fun d => Iff.rfl
  have h1 : 'a'.toNat = 97 := rfl
  have h2 : 'f'.toNat = 102 := rfl
  have h3 : 'A'.toNat = 65 := rfl
  have h4 : 'F'.toNat = 70 := rfl
  rw [hexValue, h0, if_neg (by simp), if_neg (by rw [hle, hge]; omega),
    if_neg (by rw [hle, hge]; omega)] at h
  cases h

theorem chunkSize_toDigits (n : ℕ) : chunkSize (Nat.toDigits 16 n) = some n := by
  obtain ⟨hall, hfold⟩ := foldl_hexValue_toDigits n
  have hdrop : (Nat.toDigits 16 n).dropWhile (fun c => (hexValue c).isSome) = [] :=
    List.dropWhile_eq_nil_iff.2 hall
  have htake : (Nat.toDigits 16 n).takeWhile (fun c => (hexValue c).isSome) = Nat.toDigits 16 n :=
    List.takeWhile_eq_self_iff.2 hall
  simp only [chunkSize, hdrop, hexNumber, htake, hfold, Nat.toDigits_ne_nil, if_false]

theorem decimal_toDigits (n : ℕ) : decimal (Nat.toDigits 10 n) = some n := by
  have hdigits : (Nat.toDigits 10 n).all Char.isDigit = true :=
    List.all_eq_true.2 fun c hc => Nat.isDigit_of_mem_toDigits (by decide) (by decide) hc
  rw [decimal, if_pos ⟨Nat.toDigits_ne_nil, hdigits⟩]
  exact congrArg some Nat.ofDigitChars_ten_toDigits

/-- Printable ASCII text. -/
def Printable (t : Text) : Prop := ∀ c ∈ t, c = '\t' ∨ (32 ≤ c.toNat ∧ c.toNat ≤ 126)

theorem Printable.append {a b : Text} (ha : Printable a) (hb : Printable b) : Printable (a ++ b) :=
  List.forall_mem_append.2 ⟨ha, hb⟩

theorem Printable.isLine {t : Text} (h : Printable t) : IsLine t := by
  intro c hc
  rcases h c hc with rfl | ⟨hlo, -⟩
  · decide
  · exact not_lineEnd (by omega)

theorem Printable.latin_bytes {t : Text} (h : Printable t) : latin (bytes t) = t := by
  refine Http.latin_bytes fun c hc => ?_
  rcases h c hc with rfl | ⟨-, hhi⟩
  · decide
  · omega

theorem printable_token {t : Text} (h : ∀ c ∈ t, isTokenChar c = true) : Printable t := by
  intro c hc
  have := toNat_of_token (h c hc)
  exact Or.inr (by omega)

theorem printable_decimal (n : ℕ) : Printable (Nat.toDigits 10 n) := by
  intro c hc
  have hd : c.isDigit = true := Nat.isDigit_of_mem_toDigits (by decide) (by decide) hc
  exact printable_token (t := [c]) (by simp [isTokenChar, Char.isAlphanum, hd]) c (by simp)

theorem printable_hex (n : ℕ) : Printable (Nat.toDigits 16 n) := by
  intro c hc
  have := toNat_of_hexValue ((foldl_hexValue_toDigits n).1 c hc)
  exact Or.inr (by omega)

section Sender

variable {bodyless : ℕ → Bool}

theorem feed_text {kind : LineKind} {t : Text} (ht : Printable t)
    (hstart : ∀ b, (bytes t ++ crlf).head? = some b → badStart kind b = false) :
    (bytes t ++ crlf).foldl (feed bodyless) (.line kind []) = lineDone bodyless kind (bytes t) :=
  feed_line (not_mem_bytes_cr fun c hc => (ht.isLine c hc).1) hstart

theorem feed_status {status : ℕ} (hs : 100 ≤ status ∧ status < 1000) {reason : Text}
    (hr : Printable reason) :
    (bytes ("HTTP/1.1 ".toList ++ Nat.toDigits 10 status ++ ' ' :: reason) ++ crlf).foldl
        (feed bodyless) (.line .status []) = .line (.field status ⟨false, none⟩) [] := by
  have hall : ∀ s : Fin 900, (Nat.toDigits 10 (s + 100)).length = 3 := by decide +kernel
  have hlen := hall ⟨status - 100, by omega⟩
  simp only [Nat.sub_add_cancel hs.1] at hlen
  obtain ⟨a, b, c, habc⟩ := List.length_eq_three.1 hlen
  have hprint : Printable ("HTTP/1.1 ".toList ++ Nat.toDigits 10 status ++ ' ' :: reason) := by
    refine (Printable.append ?_ (printable_decimal status)).append ?_
    · exact forall_chars rfl
    · exact List.forall_mem_cons.2 ⟨Or.inr (by decide), hr⟩
  have hstatus : statusOf ("HTTP/1.1 ".toList ++ Nat.toDigits 10 status ++ ' ' :: reason) =
      some status := by
    have hdec := decimal_toDigits status
    rw [habc] at hdec ⊢
    exact hdec
  rw [feed_text hprint, lineDone, hprint.latin_bytes, hstatus]
  intro b hb
  have hH : bytes "HTTP/1.1 ".toList = 72 :: bytes "TTP/1.1 ".toList := rfl
  rw [bytes_append, bytes_append, hH] at hb
  have : b = 72 := Option.some.inj hb.symm
  simp [badStart, this]

/-- A field line of a response. -/
theorem feed_field {status : ℕ} {info info' : BodyInfo} {name value : Text} (hne : name ≠ [])
    (hname : ∀ c ∈ name, isTokenChar c = true) (hvalue : Printable value)
    (hadd : info.add (lower name) (trimOws (' ' :: value)) = some info') :
    (bytes (name ++ ": ".toList ++ value) ++ crlf).foldl (feed bodyless)
        (.line (.field status info) []) = .line (.field status info') [] := by
  have hprint : Printable (name ++ ": ".toList ++ value) := by
    refine ((printable_token hname).append ?_).append hvalue
    exact forall_chars rfl
  have hcolon : ∀ c ∈ name, c ≠ ':' := by
    rintro c hc rfl
    exact (toNat_of_token (hname _ hc)).2.2 rfl
  have hfield : fieldOf (name ++ ": ".toList ++ value) = some (lower name, trimOws (' ' :: value)) := by
    have hsplit : Text.splitOnceList [':'] (name ++ ": ".toList ++ value) =
        some (name, ' ' :: value) := by
      have := splitOnce_colon hcolon (' ' :: value)
      simpa using this
    rw [fieldOf, hsplit]
    simp [hne, List.all_eq_true.2 hname]
  have hbytes : bytes (name ++ ": ".toList ++ value) ≠ [] := bytes_ne_nil (by simp)
  rw [feed_text hprint (by simp [badStart]), lineDone, if_neg hbytes, hprint.latin_bytes, hfield]
  simp only [hadd]

theorem feed_chunk {data : Bytes} (h : data ≠ []) :
    (bytes (Nat.toDigits 16 data.length) ++ crlf ++ data ++ crlf).foldl (feed bodyless)
        (.line .size []) = .line .size [] := by
  have hsize : (bytes (Nat.toDigits 16 data.length) ++ crlf).foldl (feed bodyless) (.line .size []) =
      .data data.length := by
    rw [feed_text (printable_hex _), lineDone, (printable_hex _).latin_bytes, chunkSize_toDigits]
    · cases data with
      | nil => exact absurd rfl h
      | cons b data => rfl
    · -- the line begins with a digit
      intro b hb
      obtain ⟨c, t, hct⟩ := List.exists_cons_of_ne_nil (@Nat.toDigits_ne_nil data.length 16)
      have hc := (foldl_hexValue_toDigits data.length).1 c (by simp [hct])
      have hascii := toNat_of_hexValue hc
      obtain ⟨b', hb', hbytes⟩ := bytes_cons_ascii (by omega : c.toNat < 128) t
      rw [hct, hbytes] at hb
      have : b = b' := Option.some.inj hb.symm
      rw [badStart, this, hb', hc]
      rfl
  rw [List.foldl_append, List.foldl_append, hsize, feed_data h]
  exact feed_line (l := []) (by simp) (by simp [badStart])

theorem feed_headEnd (status : ℕ) (info : BodyInfo) :
    crlf.foldl (feed bodyless) (.line (.field status info) []) = afterHead bodyless status info :=
  feed_line (l := []) (by simp) (by simp [badStart])

theorem feed_last :
    (bytes "0".toList ++ crlf ++ crlf).foldl (feed bodyless) (.line .size []) = .done := rfl

end Sender

end Http

end Lib
