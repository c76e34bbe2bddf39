import Switchback.Server.Proxy

/-!
# Where the proxy reads requests

A client sends requests back to back, and the proxy has to read a head exactly where the client
began a request.
-/

namespace Switchback

namespace Proxy

open Lib Http

/-- A block that ends with the first empty line in it. -/
structure FirstEnd (block : Bytes) : Prop where
  ends : headEnd <:+ block
  first : ∀ p, p <+: block → headEnd <:+ p → p = block

variable {block input rest : Bytes} {m : Http.Message}

theorem FirstEnd.ne_nil (h : FirstEnd block) : block ≠ [] := by
  rintro rfl
  have := h.ends.length_le
  simp [headEnd, crlf] at this

theorem readHeaderBlock_eq_got_iff {buf : Bytes} (hbuf : ∀ p, p <+: buf → ¬ headEnd <:+ p) :
    readHeaderBlock buf input = .got block rest ↔
      buf <+: block ∧ buf ++ input = block ++ rest ∧ FirstEnd block ∧
        block.length ≤ maxHeaderBytes := by
  induction input generalizing buf with
  | nil =>
    constructor
    · intro h
      simp only [readHeaderBlock] at h
      split_ifs at h
    · rintro ⟨⟨x, rfl⟩, heq, hfirst, -⟩
      have hx : x = [] := by
        have := congrArg List.length heq
        simp only [List.length_append, List.length_nil] at this
        exact List.length_eq_zero_iff.1 (by omega)
      subst hx
      rw [List.append_nil] at hfirst
      exact absurd hfirst.ends (hbuf buf (List.prefix_refl _))
  | cons b input ih =>
    -- a block that begins with what was read takes the next byte too
    have hnext : buf <+: block → buf ++ b :: input = block ++ rest → FirstEnd block →
        buf ++ [b] <+: block := by
      rintro ⟨x, rfl⟩ heq hfirst
      cases x with
      | nil =>
        rw [List.append_nil] at hfirst
        exact absurd hfirst.ends (hbuf buf (List.prefix_refl _))
      | cons c x =>
        simp only [List.append_assoc, List.cons_append, List.append_cancel_left_eq,
          List.cons.injEq] at heq
        exact ⟨x, by simp [heq.1]⟩
    simp only [readHeaderBlock]
    split_ifs with hlong hend
    · refine iff_of_false (by simp) ?_
      rintro ⟨hbl, heq, hfirst, hlen⟩
      have := (hnext hbl heq hfirst).length_le
      omega
    · constructor
      · intro h
        obtain ⟨rfl, rfl⟩ := Read.got.inj h
        refine ⟨List.prefix_append _ _, by simp, ⟨hend, ?_⟩, by omega⟩
        intro p hp hpe
        rcases List.prefix_concat_iff.1 hp with rfl | hp'
        · rfl
        · exact absurd hpe (hbuf p hp')
      · rintro ⟨hbl, heq, hfirst, -⟩
        have hblock := hfirst.first _ (hnext hbl heq hfirst) hend
        subst hblock
        have : rest = input := by simpa using heq.symm
        rw [this]
    · rw [ih]
      · constructor
        · rintro ⟨hbl, heq, hfirst, hlen⟩
          exact ⟨(List.prefix_append _ _).trans hbl, by simpa using heq, hfirst, hlen⟩
        · rintro ⟨hbl, heq, hfirst, hlen⟩
          exact ⟨hnext hbl heq hfirst, by simpa using heq, hfirst, hlen⟩
      · intro p hp
        rcases List.prefix_concat_iff.1 hp with rfl | hp'
        · exact hend
        · exact hbuf p hp'

theorem readHeaderBlock_nil_eq_got_iff :
    readHeaderBlock [] input = .got block rest ↔
      input = block ++ rest ∧ FirstEnd block ∧ block.length ≤ maxHeaderBytes := by
  rw [readHeaderBlock_eq_got_iff]
  · simp
  · intro p hp
    rw [List.prefix_nil.1 hp]
    decide

/-- **When a head is read**: the stream begins with text up to the first empty line, not too long,
whose first line has two words. -/
theorem readHttpHead_eq_got_iff {head : HttpHead} :
    readHttpHead input = .got head rest ↔
      ∃ text, input = bytes text ++ rest ∧ FirstEnd (bytes text) ∧
        (bytes text).length ≤ maxHeaderBytes ∧ parseHead text = .ok head := by
  constructor
  · intro h
    simp only [readHttpHead] at h
    split at h
    · cases h
    · cases h
    · rename_i block rest' hblock
      split_ifs at h with hvalid
      split at h
      · cases h
      · rename_i hparse
        obtain ⟨rfl, rfl⟩ := Read.got.inj h
        rw [not_not] at hvalid
        obtain ⟨hin, hfirst, hlen⟩ := readHeaderBlock_nil_eq_got_iff.1 hblock
        exact ⟨Utf8.lossy block, by rw [bytes, hvalid, hin], by rwa [bytes, hvalid],
          by rwa [bytes, hvalid], hparse⟩
  · rintro ⟨text, hin, hfirst, hlen, hparse⟩
    have hlossy : Utf8.lossy (bytes text) = text := Utf8.lossy_encode text
    have hvalid : Utf8.encode text = bytes text := rfl
    simp only [readHttpHead, readHeaderBlock_nil_eq_got_iff.2 ⟨hin, hfirst, hlen⟩, hlossy, hvalid,
      ne_eq, not_true_eq_false, if_false, hparse]

/-! ### The head of a request -/

/-- The text of the lines of a head. -/
def linesText (ls : List Text) : Text := ls.flatMap fun l => l ++ "\r\n".toList

theorem bytes_linesText (ls : List Text) : bytes (linesText ls) = linesBytes ls := by
  induction ls with
  | nil => rfl
  | cons l ls ih =>
    have : linesText (l :: ls) = l ++ "\r\n".toList ++ linesText ls := by simp [linesText]
    rw [this, bytes_append, bytes_append, bytes_crlf, ih]
    simp [linesBytes]

theorem splitCrlf_line {l : Text} (h : IsLine l) (t : Text) :
    splitCrlf (l ++ ('\r' :: '\n' :: t)) = l :: splitCrlf t := by
  induction l with
  | nil => rfl
  | cons c l ih =>
    obtain ⟨hc, hl⟩ := List.forall_mem_cons.1 h
    rw [List.cons_append, splitCrlf, ih hl]
    exact fun u hu => absurd hu hc.1

theorem splitCrlf_linesText {ls : List Text} (h : ∀ l ∈ ls, IsLine l) (t : Text) :
    splitCrlf (linesText ls ++ t) = ls ++ splitCrlf t := by
  induction ls with
  | nil => rfl
  | cons l ls ih =>
    obtain ⟨hl, hls⟩ := List.forall_mem_cons.1 h
    have : linesText (l :: ls) ++ t = l ++ ('\r' :: '\n' :: (linesText ls ++ t)) := by
      simp [linesText]
    rw [this, splitCrlf_line hl, ih hls, List.cons_append]

theorem trim_of_forall {t : Text} (h : ∀ c ∈ t, Text.isWhiteSpace c = false) : trim t = t := by
  have hdrop : ∀ u : Text, (∀ c ∈ u, Text.isWhiteSpace c = false) →
      u.dropWhile Text.isWhiteSpace = u := by
    intro u hu
    cases u with
    | nil => rfl
    | cons c u => simp [hu c List.mem_cons_self]
  rw [trim, Text.trimStartList, hdrop t h, Text.trimEndList, hdrop, List.reverse_reverse]
  simpa using h

theorem trim_around {a b : Text} (ha : ∀ c ∈ a, Text.isWhiteSpace c = true)
    (hb : ∀ c ∈ b, Text.isWhiteSpace c = true) (t : Text) : trim (a ++ t ++ b) = trim t := by
  have hdrop : ∀ u v : Text, (∀ c ∈ u, Text.isWhiteSpace c = true) →
      (u ++ v).dropWhile Text.isWhiteSpace = v.dropWhile Text.isWhiteSpace :=
    fun u v hu => List.dropWhile_append_of_pos hu
  have hend : ∀ u : Text, Text.trimEndList (u ++ b) = Text.trimEndList u := by
    intro u
    rw [Text.trimEndList, List.reverse_append, hdrop _ _ (by simpa using hb), Text.trimEndList]
  rw [trim, Text.trimStartList, List.append_assoc, hdrop _ _ ha, List.dropWhile_append]
  split_ifs with hall
  · -- the text is white space all through
    have h0 : t.dropWhile Text.isWhiteSpace = [] := by simpa using hall
    have h1 : b.dropWhile Text.isWhiteSpace = [] := by
      simpa using hdrop b [] hb
    rw [trim, Text.trimStartList, h0, h1]
  · rw [hend, trim, Text.trimStartList]

theorem headerOf_line {f : Field} (h : f.Ok) : headerOf f.line = some (f.name, trim f.value) := by
  have hcolon : ∀ c ∈ f.name, c ≠ ':' := by
    rintro c hc rfl
    exact (toNat_of_token (h.name_token _ hc)).2.2 rfl
  have hows : ∀ t : Text, (∀ c ∈ t, isOws c = true) → ∀ c ∈ t, Text.isWhiteSpace c = true := by
    intro t ht c hc
    rcases isOws_cases (ht c hc) with rfl | rfl <;> decide
  have hname : trim f.name = f.name := trim_of_forall fun c hc =>
    not_whiteSpace ⟨(toNat_of_token (h.name_token c hc)).1, (toNat_of_token (h.name_token c hc)).2.1⟩
  have hne : f.line ≠ [] := by simp [Field.line]
  rw [headerOf, if_neg hne, Field.line, splitOnce_colon hcolon, Option.map_some, hname,
    trim_around (hows _ h.lead_ows) (hows _ h.trail_ows)]

theorem splitWhitespace_two {a b c : Text} (ha : ∀ x ∈ a, Text.isWhiteSpace x = false)
    (hb : ∀ x ∈ b, Text.isWhiteSpace x = false) (hc : ∀ x ∈ c, Text.isWhiteSpace x = false)
    (ha' : a ≠ []) (hb' : b ≠ []) (hc' : c ≠ []) :
    splitWhitespace (a ++ ' ' :: (b ++ ' ' :: c)) = [a, b, c] := by
  rw [splitWhitespace, List.splitOnP_append_cons_of_forall_mem ha ' ' (by decide),
    List.splitOnP_append_cons_of_forall_mem hb ' ' (by decide), List.splitOnP_eq_singleton hc]
  simp [ha', hb', hc']

/-- The head that the proxy reads off a request. -/
def headOf (m : Http.Message) : HttpHead where
  method := m.method
  target := m.target
  headers := m.fields.map fun f => (f.name, trim f.value)

theorem parseHead_lines (h : m.Ok) :
    parseHead (linesText m.lines ++ "\r\n".toList) = .ok (headOf m) := by
  have hsplit : splitCrlf (linesText m.lines ++ "\r\n".toList) = m.lines ++ [[], []] :=
    splitCrlf_linesText (fun l hl => (h.headLines l hl).line) _
  have htoken : ∀ c ∈ m.method, Text.isWhiteSpace c = false := fun c hc =>
    not_whiteSpace ⟨(toNat_of_token (h.method_token c hc)).1,
      (toNat_of_token (h.method_token c hc)).2.1⟩
  have hwords := splitWhitespace_two htoken (fun c hc => not_whiteSpace (h.target_visible c hc))
    (c := "HTTP/1.1".toList) (forall_chars rfl) h.method_ne h.target_ne (by decide)
  have hheaders : (m.fields.map Field.line ++ [[], []]).filterMap headerOf =
      m.fields.map fun f => (f.name, trim f.value) := by
    rw [List.filterMap_append, List.filterMap_map]
    have : ∀ f ∈ m.fields, (headerOf ∘ Field.line) f = some (f.name, trim f.value) :=
      fun f hf => headerOf_line (h.fields f hf)
    rw [List.filterMap_congr this, List.filterMap_eq_map']
    simp [headerOf]
  rw [parseHead, hsplit, Http.Message.lines, List.cons_append]
  have hline : m.method ++ ' ' :: (m.target ++ " HTTP/1.1".toList) =
      m.method ++ ' ' :: (m.target ++ ' ' :: "HTTP/1.1".toList) := rfl
  simp only [hline, hwords, hheaders, headOf]

theorem headEnd_suffix_lines {ls : List Text} (h : ls ≠ []) :
    headEnd <:+ linesBytes ls ++ crlf := by
  -- the last line before the empty one has its own end
  refine ⟨linesBytes ls.dropLast ++ bytes (ls.getLast h), ?_⟩
  conv_rhs => rw [← List.dropLast_append_getLast h]
  simp [linesBytes, headEnd]

theorem firstEnd_head (h : m.Ok) : FirstEnd m.head := by
  constructor
  · exact headEnd_suffix_lines (by simp [Http.Message.lines])
  · rintro p ⟨y, hy⟩ ⟨x, rfl⟩
    have : y = [] := lines_no_early_end h.headLines (x := x) (by
      rw [← Http.Message.head, ← hy, headEnd, List.append_assoc])
    rw [← hy, this, List.append_nil]

/-- **The head of a request is read as it was sent**, but for white space around its values. -/
theorem readHttpHead_message (h : m.Ok) (hlen : m.head.length ≤ maxHeaderBytes)
    (rest : Bytes) : readHttpHead (m.head ++ rest) = .got (headOf m) rest := by
  have hbytes : m.head = bytes (linesText m.lines ++ "\r\n".toList) := by
    rw [bytes_append, bytes_linesText, bytes_crlf, Http.Message.head]
  refine readHttpHead_eq_got_iff.2 ⟨_, by rw [hbytes], ?_, ?_, parseHead_lines h⟩
  · rw [← hbytes]
    exact firstEnd_head h
  · rwa [← hbytes]

/-! ### The body of a request -/

theorem headerValue_headOf (m : Http.Message) (name : Text) :
    headerValue name (headOf m).headers = (m.named name).head?.map fun f => trim f.value := by
  rw [headerValue, headOf, List.find?_map, Http.Message.named, List.head?_filter, Option.map_map]
  rfl

theorem contentLength_headOf_none (h : m.named "content-length".toList = []) :
    contentLength (headOf m) = 0 := by
  rw [contentLength, headerValue_headOf, h]
  rfl

theorem contentLength_headOf {f : Field} {n : ℕ}
    (h : m.named "content-length".toList = [f]) (hn : decimal f.value = some n) :
    contentLength (headOf m) = if n < 2 ^ 64 then n else 0 := by
  have hdigits : f.value ≠ [] ∧ f.value.all Char.isDigit := by
    by_contra hcon
    rw [decimal, if_neg hcon] at hn
    cases hn
  have hdigit : ∀ c ∈ f.value, c.isDigit = true := fun c hc => List.all_eq_true.1 hdigits.2 c hc
  have htrim : trim f.value = f.value := trim_of_forall fun c hc => by
    have hd := hdigit c hc
    simp only [Char.isDigit, Bool.and_eq_true, decide_eq_true_eq, ge_iff_le,
      UInt32.le_iff_toNat_le] at hd
    have hc : c.val.toNat = c.toNat := rfl
    have h0 : '0'.val.toNat = 48 := rfl
    have h9 : '9'.val.toNat = 57 := rfl
    exact not_whiteSpace (by omega)
  have hplus : f.value.head? ≠ some '+' := by
    intro hcon
    have := hdigit '+' (List.mem_of_mem_head? (by rw [hcon]; rfl))
    exact absurd this (by decide)
  rw [contentLength, headerValue_headOf, h, List.head?_cons, Option.map_some, htrim,
    Option.bind_some, parseUsize, if_neg hplus, hn]
  by_cases hlt : n < 2 ^ 64
  · rw [Option.filter_some_pos (by simpa using hlt), if_pos hlt, Option.getD_some]
  · rw [Option.filter_some_neg (by simpa using hlt), if_neg hlt, Option.getD_none]

/-- The request that the proxy reads, with this body. -/
def requestOf (m : Http.Message) (body : Bytes) : ParsedRequest where
  method := m.method
  target := m.target
  headers := (headOf m).headers
  body := body
  content_type := headerValue "content-type".toList (headOf m).headers

theorem readHttpRequestFromHead_headOf {body : Bytes}
    (h : contentLength (headOf m) = body.length) (hle : body.length ≤ maxBufferedRequestBytes) :
    readHttpRequestFromHead (headOf m) (body ++ rest) = .got (requestOf m body) rest := by
  rw [readHttpRequestFromHead, h, if_neg (by omega), if_neg (by simp)]
  simp [requestOf, headOf]

/-- The request is refused for its framing. -/
def Refused (m : Http.Message) : Prop :=
  ∃ f ∈ m.named "transfer-encoding".toList, lower (trim f.value) = "chunked".toList

theorem isChunked_requestOf (m : Http.Message) (body : Bytes) :
    isChunked (requestOf m body) = true ↔ Refused m := by
  simp only [isChunked, requestOf, headOf, Refused, Http.Message.named, List.any_map, List.any_eq_true,
    Function.comp_apply, List.mem_filter, decide_eq_true_eq, and_assoc]

theorem isChunked_requestOf_false (h : m.named "transfer-encoding".toList = [])
    (body : Bytes) : isChunked (requestOf m body) = false := by
  rw [← Bool.not_eq_true, isChunked_requestOf, Refused, h]
  simp

/-! ### A list of requests -/

/-- A request as a client sends it: with a head that is text, or with other bytes in its head. -/
inductive Sent
  | text (m : Http.Message)
  | raw (head body : Bytes)

def Sent.head : Sent → Bytes
  | .text m => m.head
  | .raw head _ => head

def Sent.wire : Sent → Bytes
  | .text m => m.wire
  | .raw head body => head ++ body

/-- A request is well formed and its head fits the proxy's buffer. -/
structure Sent.Ok (s : Sent) : Prop where
  message : ∀ m, s = .text m → m.Ok
  raw : ∀ head body, s = .raw head body → FirstEnd head ∧ ¬ Utf8.Valid head
  fits : s.head.length ≤ maxHeaderBytes

/-- The requests back to back. -/
def wire (ss : List Sent) : Bytes := ss.flatMap Sent.wire

/-- What a request says: its method, its target, its headers and its body. -/
abbrev Content := Text × Text × List (Text × Text) × Bytes

def contentOf (m : Http.Message) : Content :=
  (m.method, m.target, m.fields.map fun f => (f.name, f.value), m.framing.body)

def Sent.content : Sent → Option Content
  | .text m => some (contentOf m)
  | .raw _ _ => none

def ParsedRequest.content (r : ParsedRequest) : Content := (r.method, r.target, r.headers, r.body)

/-- Every head that the proxy parses begins where the client began a request, and every request
that it passes on is the one that begins there. -/
structure Located (ss : List Sent) (t : Trace) : Prop where
  aligned : ∀ p ∈ t.heads, ∃ m b, Sent.text m :: b <:+ ss ∧ p.1 = (wire (.text m :: b)).length
  exact : ∀ p ∈ t.forwarded, ∃ m b, Sent.text m :: b <:+ ss ∧
    p.1 = (wire (.text m :: b)).length ∧ p.2.content = contentOf m

/-- **The proxy is not confused**: it reads requests where they begin and as they are, and what it
passes on is a subsequence of what was sent. -/
structure Framed (ss : List Sent) (t : Trace) : Prop where
  located : Located ss t
  subsequence : (t.forwarded.map fun p => p.2.content).Sublist (ss.filterMap Sent.content)

/-- The values have no white space at their ends, also none outside ASCII. -/
def PlainValues (m : Http.Message) : Prop := ∀ f ∈ m.fields, trim f.value = f.value

/-- Bytes that would be taken for a head: text up to the first empty line, not too long, with two
words in its first line. -/
def LooksLikeHead (b : Bytes) : Prop :=
  ∃ text rest, b = bytes text ++ rest ∧ FirstEnd (bytes text) ∧
    (bytes text).length ≤ maxHeaderBytes ∧
    2 ≤ (splitWhitespace ((splitCrlf text).headD [])).length

/-- The lists of requests that do not confuse the proxy. -/
def Clean : List Sent → Prop
  | [] => True
  | .raw _ _ :: _ => True
  | .text m :: ss =>
    match m.framing with
    | .none => PlainValues m ∧ Clean ss
    | .length body =>
      body.length < 2 ^ 64 ∧
        (body.length ≤ maxBufferedRequestBytes → PlainValues m ∧ Clean ss)
    | .chunked _ _ _ =>
      (Refused m ∨ (m.framing.body = [] ∧ PlainValues m)) ∧ ¬ LooksLikeHead m.framing.wire

theorem wire_cons (s : Sent) (ss : List Sent) : wire (s :: ss) = s.wire ++ wire ss := by
  simp [wire]

theorem Sent.Ok.wire_ne_nil {s : Sent} (h : s.Ok) : s.wire ≠ [] := by
  cases s with
  | text m =>
    have := (firstEnd_head (h.message m rfl)).ne_nil
    simp [Sent.wire, Http.Message.wire, this]
  | raw head body =>
    have := (h.raw head body rfl).1.ne_nil
    simp [Sent.wire, this]

variable {ss : List Sent}

theorem length_wire_suffix {b : List Sent} (h : b <:+ ss) : (wire b).length ≤ (wire ss).length := by
  obtain ⟨a, rfl⟩ := h
  simp [wire]

theorem suffix_of_length_eq {s : Sent} {b : List Sent} (h : b <:+ s :: ss) {n : ℕ}
    (hn : n = (wire b).length) (hlt : (wire ss).length < n) : b = s :: ss := by
  rcases List.suffix_cons_iff.1 h with h | h
  · exact h
  · have := length_wire_suffix h
    omega

theorem Framed.empty (ss : List Sent) : Framed ss .empty :=
  ⟨⟨by simp [Trace.empty], by simp [Trace.empty]⟩, by simp [Trace.empty]⟩

theorem Framed.head_only (m : Http.Message) (ss : List Sent) (head : HttpHead) :
    Framed (.text m :: ss) { Trace.empty with heads := [((wire (.text m :: ss)).length, head)] } := by
  refine ⟨⟨?_, by simp [Trace.empty]⟩, by simp [Trace.empty]⟩
  intro p hp
  obtain rfl := List.mem_singleton.1 hp
  exact ⟨m, ss, List.suffix_refl _, rfl⟩

/-- One more round, in which a request is refused or read as it was sent. -/
theorem Framed.cons {t : Trace} (ht : Framed ss t) (head : HttpHead)
    {r : ParsedRequest} (out : Bytes) (hr : isChunked r = false → r.content = contentOf m) :
    Framed (.text m :: ss) (.cons (wire (.text m :: ss)).length head r out t) := by
  have hlater : ∀ {m' : Http.Message} {b : List Sent}, Sent.text m' :: b <:+ ss →
      Sent.text m' :: b <:+ .text m :: ss := fun h => h.trans (List.suffix_cons _ _)
  refine ⟨⟨?_, ?_⟩, ?_⟩
  · intro p hp
    rcases List.mem_cons.1 hp with rfl | hp
    · exact ⟨m, ss, List.suffix_refl _, rfl⟩
    · obtain ⟨m', b, hb, hn⟩ := ht.located.aligned p hp
      exact ⟨m', b, hlater hb, hn⟩
  · intro p hp
    cases hc : isChunked r with
    | true =>
      simp only [Trace.cons, hc, if_true] at hp
      obtain ⟨m', b, hb, hn⟩ := ht.located.exact p hp
      exact ⟨m', b, hlater hb, hn⟩
    | false =>
      simp only [Trace.cons, hc, Bool.false_eq_true, if_false] at hp
      rcases List.mem_cons.1 hp with rfl | hp
      · exact ⟨m, ss, List.suffix_refl _, rfl, hr hc⟩
      · obtain ⟨m', b, hb, hn⟩ := ht.located.exact p hp
        exact ⟨m', b, hlater hb, hn⟩
  · rw [List.filterMap_cons_some (show Sent.content (.text m) = some (contentOf m) from rfl)]
    cases hc : isChunked r with
    | true =>
      simp only [Trace.cons, hc, if_true]
      exact ht.subsequence.trans (List.sublist_cons_self _ _)
    | false =>
      simp only [Trace.cons, hc, Bool.false_eq_true, if_false, List.map_cons, hr hc]
      exact ht.subsequence.cons_cons _

theorem parseHead_eq_ok_iff (text : Text) :
    (∃ head, parseHead text = .ok head) ↔
      2 ≤ (splitWhitespace ((splitCrlf text).headD [])).length := by
  rw [parseHead]
  cases splitCrlf text with
  | nil => simp [splitWhitespace]
  | cons first lines =>
    match hw : splitWhitespace first with
    | [] => simp [hw]
    | [_] => simp [hw]
    | _ :: _ :: _ => simp [hw]

theorem looksLikeHead_iff {b : Bytes} (hb : headEnd <:+ b) (rest : Bytes) :
    LooksLikeHead b ↔ ∃ head rest', readHttpHead (b ++ rest) = .got head rest' := by
  constructor
  · rintro ⟨text, rest', hin, hfirst, hlen, hwords⟩
    obtain ⟨head, hparse⟩ := (parseHead_eq_ok_iff text).2 hwords
    refine ⟨head, rest' ++ rest, readHttpHead_eq_got_iff.2 ⟨text, ?_, hfirst, hlen, hparse⟩⟩
    rw [hin, List.append_assoc]
  · rintro ⟨head, rest', hread⟩
    obtain ⟨text, hin, hfirst, hlen, hparse⟩ := readHttpHead_eq_got_iff.1 hread
    have hwords := (parseHead_eq_ok_iff text).1 ⟨head, hparse⟩
    rcases List.append_eq_append_iff.1 hin with ⟨a, ha, -⟩ | ⟨a, ha, -⟩
    · -- the block reaches to the end of the bytes at least, so it ends there
      have hall := hfirst.first b ⟨a, ha.symm⟩ hb
      exact ⟨text, [], by rw [hall, List.append_nil], hfirst, hlen, hwords⟩
    · exact ⟨text, a, ha, hfirst, hlen, hwords⟩

theorem headEnd_suffix_chunked (chunks : List Chunk) (last : Text) (trailers : List Field) :
    headEnd <:+ (Framing.chunked chunks last trailers).wire := by
  have hlines : headEnd <:+ linesBytes (last :: trailers.map Field.line) ++ crlf :=
    headEnd_suffix_lines (by simp)
  have : (Framing.chunked chunks last trailers).wire =
      chunks.flatMap Chunk.wire ++ (linesBytes (last :: trailers.map Field.line) ++ crlf) := by
    simp [Framing.wire, linesBytes]
  rw [this]
  exact hlines.trans (List.suffix_append _ _)

theorem readHttpHead_raw {head : Bytes} (h : FirstEnd head) (hvalid : ¬ Utf8.Valid head)
    (rest : Bytes) : ∀ x y, readHttpHead (head ++ rest) ≠ .got x y := by
  intro x y hread
  obtain ⟨text, hin, hfirst, -, -⟩ := readHttpHead_eq_got_iff.1 hread
  have heq : head = bytes text := by
    rcases List.append_eq_append_iff.1 hin with ⟨a, ha, -⟩ | ⟨a, ha, -⟩
    · exact hfirst.first head ⟨a, ha.symm⟩ h.ends
    · exact (h.first _ ⟨a, ha.symm⟩ hfirst.ends).symm
  rw [heq] at hvalid
  exact hvalid (Utf8.valid_encode text)

/-! ### One round -/

section Rounds

variable {exchange : ℕ → Exchange}

variable {input rest : Bytes} {head : HttpHead} {r : ParsedRequest} {fuel round : ℕ}
variable {ss : List Sent} {m : Http.Message}

theorem handle_of_noHead (h : ∀ x y, readHttpHead input ≠ .got x y)
    (fuel round : ℕ) : handleCapturedRequests exchange fuel round input = .empty := by
  cases fuel with
  | zero => rfl
  | succ fuel =>
    rw [handleCapturedRequests]
    cases hread : readHttpHead input with
    | closed => rfl
    | failed e => rfl
    | got x y => exact absurd hread (h x y)

/-- The rounds behind one that went through or in which the client hung up. -/
def next (exchange : ℕ → Exchange) (fuel round : ℕ) (r : ParsedRequest) (rest : Bytes) : Trace :=
  if (deliver (exchange round) (answer r (exchange round).upstream)).2 then
    handleCapturedRequests exchange fuel (round + 1) rest
  else .empty

theorem handle_of_read {rest' : Bytes} (hhead : readHttpHead input = .got head rest)
    (hbody : readHttpRequestFromHead head rest = .got r rest') (fuel round : ℕ) :
    handleCapturedRequests exchange (fuel + 1) round input =
      .cons input.length head r
        (deliver (exchange round) (answer r (exchange round).upstream)).1
        (next exchange fuel round r rest') := by
  rw [handleCapturedRequests, hhead]
  simp only [hbody, next]
  cases deliver (exchange round) (answer r (exchange round).upstream) with
  | mk out more => cases more <;> rfl

theorem Framed.next
    (h : Framed ss (handleCapturedRequests exchange fuel (round + 1) rest)) (r : ParsedRequest) :
    Framed ss (next exchange fuel round r rest) := by
  unfold Proxy.next
  split_ifs
  · exact h
  · exact .empty ss

theorem mem_heads_of_read (hhead : readHttpHead input = .got head rest) (fuel round : ℕ) :
    (input.length, head) ∈ (handleCapturedRequests exchange (fuel + 1) round input).heads := by
  cases hbody : readHttpRequestFromHead head rest with
  | closed => simp [handleCapturedRequests, hhead, hbody]
  | failed e => simp [handleCapturedRequests, hhead, hbody]
  | got r rest' =>
    rw [handle_of_read hhead hbody]
    exact List.mem_cons_self

theorem heads_le (fuel round : ℕ) (input : Bytes) :
    (∀ p ∈ (handleCapturedRequests exchange fuel round input).heads, p.1 ≤ input.length) ∧
      ∀ p ∈ (handleCapturedRequests exchange fuel round input).forwarded, p.1 ≤ input.length := by
  induction fuel generalizing round input with
  | zero => simp [handleCapturedRequests, Trace.empty]
  | succ fuel ih =>
    cases hhead : readHttpHead input with
    | closed => simp [handleCapturedRequests, hhead, Trace.empty]
    | failed e => simp [handleCapturedRequests, hhead, Trace.empty]
    | got head rest =>
      cases hbody : readHttpRequestFromHead head rest with
      | closed => simp [handleCapturedRequests, hhead, hbody, Trace.empty]
      | failed e => simp [handleCapturedRequests, hhead, hbody, Trace.empty]
      | got r rest' =>
        rw [handle_of_read hhead hbody]
        have hle : rest'.length ≤ input.length := by
          obtain ⟨text, rfl, -⟩ := readHttpHead_eq_got_iff.1 hhead
          simp only [readHttpRequestFromHead] at hbody
          split_ifs at hbody
          obtain ⟨-, rfl⟩ := Read.got.inj hbody
          simp only [List.length_append, List.length_drop]
          omega
        have htail : (∀ p ∈ (next exchange fuel round r rest').heads, p.1 ≤ input.length) ∧
            ∀ p ∈ (next exchange fuel round r rest').forwarded, p.1 ≤ input.length := by
          unfold next
          split_ifs
          · exact ⟨fun p hp => ((ih _ _).1 p hp).trans hle,
              fun p hp => ((ih _ _).2 p hp).trans hle⟩
          · simp [Trace.empty]
        constructor
        · intro p hp
          rcases List.mem_cons.1 hp with rfl | hp
          · exact le_rfl
          · exact htail.1 p hp
        · intro p hp
          simp only [Trace.cons] at hp
          split_ifs at hp
          · exact htail.2 p hp
          · rcases List.mem_cons.1 hp with rfl | hp
            · exact le_rfl
            · exact htail.2 p hp

/-- The round of a request of which the proxy takes these bytes for the body. -/
theorem handle_message (h : (Sent.text m).Ok) {body : Bytes}
    (hwire : m.framing.wire ++ wire ss = body ++ rest)
    (hlen : contentLength (headOf m) = body.length) (hle : body.length ≤ maxBufferedRequestBytes)
    (fuel round : ℕ) :
    handleCapturedRequests exchange (fuel + 1) round (wire (.text m :: ss)) =
      .cons (wire (.text m :: ss)).length (headOf m) (requestOf m body)
        (deliver (exchange round) (answer (requestOf m body) (exchange round).upstream)).1
        (next exchange fuel round (requestOf m body) rest) := by
  refine handle_of_read ?_ (readHttpRequestFromHead_headOf hlen hle) fuel round
  rw [wire_cons, Sent.wire, Http.Message.wire, List.append_assoc, hwire]
  exact readHttpHead_message (h.message m rfl) h.fits _

theorem handle_too_large (h : (Sent.text m).Ok)
    (hlen : maxBufferedRequestBytes < contentLength (headOf m)) (fuel round : ℕ) :
    handleCapturedRequests exchange (fuel + 1) round (wire (.text m :: ss)) =
      { Trace.empty with heads := [((wire (.text m :: ss)).length, headOf m)] } := by
  have hhead : readHttpHead (wire (.text m :: ss)) = .got (headOf m) (m.framing.wire ++ wire ss) := by
    rw [wire_cons, Sent.wire, Http.Message.wire, List.append_assoc]
    exact readHttpHead_message (h.message m rfl) h.fits _
  have hbody : readHttpRequestFromHead (headOf m) (m.framing.wire ++ wire ss) =
      .failed "request body too large for forward proxy buffer" := by
    rw [readHttpRequestFromHead, if_pos (by omega)]
  simp only [handleCapturedRequests, hhead, hbody]

theorem content_requestOf {body : Bytes} :
    (requestOf m body).content = contentOf m ↔ PlainValues m ∧ body = m.framing.body := by
  simp only [ParsedRequest.content, requestOf, headOf, contentOf, Prod.mk.injEq, true_and,
    PlainValues, List.map_inj_left]

theorem contentLength_chunked (h : m.Ok) {chunks last trailers}
    (hm : m.framing = .chunked chunks last trailers) : contentLength (headOf m) = 0 := by
  have := h.framed
  rw [Http.Message.Framed, hm] at this
  exact contentLength_headOf_none this.1

/-- **Clean lists do not confuse the proxy.** -/
theorem framed_of_clean (h : ∀ s ∈ ss, s.Ok) (hclean : Clean ss) (fuel round : ℕ) :
    Framed ss (handleCapturedRequests exchange fuel round (wire ss)) := by
  induction ss generalizing fuel round with
  | nil =>
    rw [handle_of_noHead]
    · exact .empty []
    · intro x y hread
      cases hread
  | cons s ss ih =>
    obtain ⟨hs, hss⟩ := List.forall_mem_cons.1 h
    cases fuel with
    | zero => exact .empty _
    | succ fuel =>
    cases s with
    | raw head body =>
      obtain ⟨hfirst, hvalid⟩ := hs.raw head body rfl
      rw [handle_of_noHead]
      · exact .empty _
      · rw [wire_cons, Sent.wire, List.append_assoc]
        exact readHttpHead_raw hfirst hvalid _
    | text m =>
      have hm := (hs.message m rfl).framed
      rw [Http.Message.Framed] at hm
      rw [Clean] at hclean
      cases hf : m.framing with
      | none =>
        rw [hf] at hm hclean
        have hwire : m.framing.wire ++ wire ss = [] ++ wire ss := by simp [hf, Framing.wire]
        rw [handle_message hs hwire (contentLength_headOf_none hm.1) (by simp)]
        refine ((ih hss hclean.2 fuel (round + 1)).next _).cons _ _ fun _ => ?_
        exact content_requestOf.2 ⟨hclean.1, by simp [hf, Framing.body]⟩
      | length body =>
        rw [hf] at hm hclean
        obtain ⟨⟨f, hnamed, hdec⟩, hte⟩ := hm
        have hlen := contentLength_headOf hnamed hdec
        rw [if_pos hclean.1] at hlen
        by_cases hle : body.length ≤ maxBufferedRequestBytes
        · obtain ⟨hplain, hrest⟩ := hclean.2 hle
          have hwire : m.framing.wire ++ wire ss = body ++ wire ss := by simp [hf, Framing.wire]
          rw [handle_message hs hwire hlen hle]
          refine ((ih hss hrest fuel (round + 1)).next _).cons _ _ fun _ => ?_
          exact content_requestOf.2 ⟨hplain, by simp [hf, Framing.body]⟩
        · rw [handle_too_large hs (by omega)]
          exact .head_only m ss (headOf m)
      | chunked chunks last trailers =>
        -- behind it the loop reads the chunks, which are no head
        rw [hf] at hclean
        obtain ⟨hrefused, hlooks⟩ := hclean
        have hwire : m.framing.wire ++ wire ss = [] ++ (m.framing.wire ++ wire ss) := rfl
        rw [handle_message hs hwire (contentLength_chunked (hs.message m rfl) hf) (by simp)]
        refine Framed.cons (Framed.next ?_ _) _ _ ?_
        · rw [handle_of_noHead]
          · exact .empty ss
          · intro x y hread
            rw [hf] at hread
            exact hlooks ((looksLikeHead_iff (headEnd_suffix_chunked _ _ _) _).2 ⟨x, y, hread⟩)
        · intro hnot
          rcases hrefused with hrefused | ⟨hbody, hplain⟩
          · exact absurd ((isChunked_requestOf m []).2 hrefused) (by simp [hnot])
          · exact content_requestOf.2 ⟨hplain, by rw [hf, hbody]⟩

/-- What is located behind the first round. -/
theorem Located.tail {s : Sent} (hs : s.Ok) {n : ℕ} {out : Bytes} (h : Located (s :: ss)
      (.cons n head r out (handleCapturedRequests exchange fuel round (wire ss)))) :
    Located ss (handleCapturedRequests exchange fuel round (wire ss)) := by
  have hpos : 0 < s.wire.length := List.length_pos_of_ne_nil hs.wire_ne_nil
  -- what begins in the later bytes is no place of the first request
  have hlater : ∀ {b : List Sent} {k : ℕ}, b <:+ s :: ss → k = (wire b).length →
      k ≤ (wire ss).length → b <:+ ss := by
    intro b k hb hk hle
    rcases List.suffix_cons_iff.1 hb with rfl | hb
    · rw [wire_cons, List.length_append] at hk
      omega
    · exact hb
  constructor
  · intro p hp
    obtain ⟨m, b, hb, hn⟩ := h.aligned p (List.mem_cons_of_mem _ hp)
    exact ⟨m, b, hlater hb hn ((heads_le fuel round _).1 p hp), hn⟩
  · intro p hp
    have hmem : p ∈ (Trace.cons n head r out
        (handleCapturedRequests exchange fuel round (wire ss))).forwarded := by
      simp only [Trace.cons]
      split_ifs
      · exact hp
      · exact List.mem_cons_of_mem _ hp
    obtain ⟨m, b, hb, hn, hc⟩ := h.exact p hmem
    exact ⟨m, b, hlater hb hn ((heads_le fuel round _).2 p hp), hn, hc⟩

/-- A request that was passed on was read as it was sent. -/
theorem Located.content (hs : (Sent.text m).Ok) {out : Bytes} {t : Trace} (hr : isChunked r = false)
    (h : Located (.text m :: ss) (.cons (wire (.text m :: ss)).length head r out t)) :
    r.content = contentOf m := by
  have hpos : 0 < (Sent.text m).wire.length := List.length_pos_of_ne_nil hs.wire_ne_nil
  have hmem : ((wire (.text m :: ss)).length, r) ∈
      (Trace.cons (wire (.text m :: ss)).length head r out t).forwarded := by
    simp [Trace.cons, hr]
  obtain ⟨m', b, hb, hn, hc⟩ := h.exact _ hmem
  have heq := suffix_of_length_eq hb hn (by rw [wire_cons, List.length_append]; omega)
  have hm : m' = m := by
    have := (List.cons.inj heq).1
    exact Sent.text.inj this
  rw [hm] at hc
  exact hc

/-- **Other lists do confuse it**, if the client stays on the line. -/
theorem clean_of_located (h : ∀ s ∈ ss, s.Ok)
    (hstay : ∀ i, (exchange i).hangs_up = none) (hfuel : (wire ss).length < fuel)
    (hloc : Located ss (handleCapturedRequests exchange fuel round (wire ss))) : Clean ss := by
  have hnext : ∀ fuel round r rest, next exchange fuel round r rest =
      handleCapturedRequests exchange fuel (round + 1) rest := by
    intro fuel round r rest
    rw [next, deliver, hstay round]
    rfl
  induction ss generalizing fuel round with
  | nil => trivial
  | cons s ss ih =>
    obtain ⟨hs, hss⟩ := List.forall_mem_cons.1 h
    obtain ⟨fuel, rfl⟩ : ∃ k, fuel = k + 1 := ⟨fuel - 1, by omega⟩
    cases s with
    | raw head body => trivial
    | text m =>
      have hok := hs.message m rfl
      have hm := hok.framed
      rw [Http.Message.Framed] at hm
      have hfuel' : (wire ss).length < fuel := by
        have := List.length_pos_of_ne_nil hs.wire_ne_nil
        rw [wire_cons, List.length_append] at hfuel
        omega
      rw [Clean]
      cases hf : m.framing with
      | none =>
        rw [hf] at hm
        have hwire : m.framing.wire ++ wire ss = [] ++ wire ss := by simp [hf, Framing.wire]
        rw [handle_message hs hwire (contentLength_headOf_none hm.1) (by simp), hnext] at hloc
        have hcontent := hloc.content hs (isChunked_requestOf_false hm.2 [])
        exact ⟨(content_requestOf.1 hcontent).1, ih hss hfuel' (hloc.tail hs)⟩
      | length body =>
        rw [hf] at hm
        obtain ⟨⟨f, hnamed, hdec⟩, hte⟩ := hm
        have hlen := contentLength_headOf hnamed hdec
        by_cases hlt : body.length < 2 ^ 64
        · refine ⟨hlt, fun hle => ?_⟩
          rw [if_pos hlt] at hlen
          have hwire : m.framing.wire ++ wire ss = body ++ wire ss := by simp [hf, Framing.wire]
          rw [handle_message hs hwire hlen hle, hnext] at hloc
          have hcontent := hloc.content hs (isChunked_requestOf_false hte body)
          exact ⟨(content_requestOf.1 hcontent).1, ih hss hfuel' (hloc.tail hs)⟩
        · -- the length is taken for zero, and the request passed on without its body
          rw [if_neg hlt] at hlen
          have hwire : m.framing.wire ++ wire ss = [] ++ (m.framing.wire ++ wire ss) := rfl
          rw [handle_message hs hwire hlen (by simp), hnext] at hloc
          have hcontent := hloc.content hs (isChunked_requestOf_false hte [])
          have hbody := (content_requestOf.1 hcontent).2
          rw [hf, Framing.body] at hbody
          rw [← hbody] at hlt
          exact absurd (by decide) hlt
      | chunked chunks last trailers =>
        have hwire : m.framing.wire ++ wire ss = [] ++ (m.framing.wire ++ wire ss) := rfl
        rw [handle_message hs hwire (contentLength_chunked hok hf) (by simp), hnext] at hloc
        refine ⟨?_, fun hlooks => ?_⟩
        · by_cases hr : Refused m
          · exact Or.inl hr
          · have hnot : isChunked (requestOf m []) = false := by
              rw [← Bool.not_eq_true, isChunked_requestOf]
              exact hr
            have hcontent := content_requestOf.1 (hloc.content hs hnot)
            exact Or.inr ⟨by rw [← hf, ← hcontent.2], hcontent.1⟩
        · -- the head read off the chunks begins inside the request
          obtain ⟨head, rest, hread⟩ :=
            (looksLikeHead_iff (headEnd_suffix_chunked chunks last trailers) (wire ss)).1 hlooks
          have hin : 0 < (Framing.chunked chunks last trailers).wire.length := by
            have := (headEnd_suffix_chunked chunks last trailers).length_le
            have h4 : headEnd.length = 4 := rfl
            omega
          have hhead : 0 < m.head.length :=
            List.length_pos_of_ne_nil (firstEnd_head hok).ne_nil
          obtain ⟨fuel, rfl⟩ : ∃ k, fuel = k + 1 := ⟨fuel - 1, by omega⟩
          have hmem : _ ∈ (handleCapturedRequests exchange (fuel + 1) (round + 1)
              ((Framing.chunked chunks last trailers).wire ++ wire ss)).heads :=
            mem_heads_of_read hread fuel (round + 1)
          rw [hf] at hloc
          obtain ⟨m', b, hb, hn⟩ := hloc.aligned _ (List.mem_cons_of_mem _ hmem)
          have heq := suffix_of_length_eq hb hn (by rw [List.length_append]; omega)
          rw [heq, wire_cons, Sent.wire, Http.Message.wire, hf] at hn
          simp only [List.length_append] at hn
          omega

end Rounds

/-- **Exactly the clean lists are read without confusion**, whatever the upstream does and whether
or not the client stays: a request by length must have a length that is a machine word and values
that begin and end with no white space outside ASCII, and the chunks of a chunked request must not
look like a head, since the loop reads on in them.  Behind a request that ends the connection
anything may follow. -/
theorem requests_framed_iff (ss : List Sent) (h : ∀ s ∈ ss, s.Ok) :
    (∀ exchange, Framed ss (serve exchange (wire ss))) ↔ Clean ss := by
  constructor
  · intro hframed
    have hstay : ∀ i, ((fun _ => ⟨.failed "", none⟩ : ℕ → Exchange) i).hangs_up = none :=
      fun _ => rfl
    exact clean_of_located h hstay (Nat.lt_succ_self _) (hframed _).located
  · intro hclean exchange
    exact framed_of_clean h hclean _ _

/-- A request without a body. -/
def getRequest : Http.Message := ⟨"GET".toList, "/a".toList, [], .none⟩

/-- A request with two bytes of body. -/
def postRequest : Http.Message where
  method := "POST".toList
  target := "/b".toList
  fields := [⟨"Content-Length".toList, " ".toList, "2".toList, []⟩]
  framing := .length [104, 105]

/-- A chunked request with a chunk extension that has a space in it. -/
def chunkedRequest : Http.Message where
  method := "POST".toList
  target := "/c".toList
  fields := [⟨"Transfer-Encoding".toList, " ".toList, "chunked".toList, []⟩]
  framing := .chunked [⟨"2;a=\"b c\"".toList, [104, 105]⟩] "0".toList []

theorem getRequest_ok : (Sent.text getRequest).Ok := by
  refine ⟨?_, by simp, by decide +kernel⟩
  intro m hm
  obtain rfl := Sent.text.inj hm
  exact ⟨by decide, forall_chars rfl, by decide, forall_chars rfl, by simp [getRequest], ⟨rfl, rfl⟩⟩

theorem postRequest_ok : (Sent.text postRequest).Ok := by
  refine ⟨?_, by simp, by decide +kernel⟩
  intro m hm
  obtain rfl := Sent.text.inj hm
  refine ⟨by decide, forall_chars rfl, by decide, forall_chars rfl, ?_, ⟨⟨_, rfl, by decide⟩, rfl⟩⟩
  intro f hf
  obtain rfl := List.mem_singleton.1 hf
  refine ⟨by decide, forall_chars rfl, forall_chars rfl, forall_chars rfl, forall_chars rfl,
    ?_, ?_⟩
  · rintro c ⟨⟩
    decide
  · rintro c ⟨⟩
    decide

theorem chunkedRequest_ok : (Sent.text chunkedRequest).Ok := by
  refine ⟨?_, by simp, by decide +kernel⟩
  intro m hm
  obtain rfl := Sent.text.inj hm
  refine ⟨by decide, forall_chars rfl, by decide, forall_chars rfl, ?_, ?_⟩
  · intro f hf
    obtain rfl := List.mem_singleton.1 hf
    refine ⟨by decide, forall_chars rfl, forall_chars rfl, forall_chars rfl, forall_chars rfl,
      ?_, ?_⟩
    · rintro c ⟨⟩
      decide
    · rintro c ⟨⟩
      decide
  · refine ⟨rfl, ⟨_, rfl, by decide⟩, ?_, ⟨by decide, ?_, forall_chars rfl⟩,
      by simp⟩
    · intro k hk
      obtain rfl := List.mem_singleton.1 hk
      refine ⟨⟨by decide, ?_, forall_chars rfl⟩, by decide⟩
      rintro c ⟨⟩
      rfl
    · rintro c ⟨⟩

theorem requests_framed_pair :
    Clean [.text getRequest, .text postRequest] ∧
      ∀ exchange, Framed [.text getRequest, .text postRequest]
        (serve exchange (wire [.text getRequest, .text postRequest])) := by
  have hclean : Clean [.text getRequest, .text postRequest] := by
    refine ⟨by simp [PlainValues, getRequest], by decide, fun _ => ⟨?_, trivial⟩⟩
    intro f hf
    obtain rfl := List.mem_singleton.1 hf
    decide
  refine ⟨hclean, (requests_framed_iff _ ?_).2 hclean⟩
  exact List.forall_mem_cons.2 ⟨getRequest_ok, by simpa using postRequest_ok⟩

/-- The chunks of a refused request are passed on as a request. -/
theorem chunks_read_as_request :
    (∀ s ∈ [Sent.text chunkedRequest], s.Ok) ∧
      ((serve (fun _ => ⟨.failed "refused", none⟩)
        (wire [.text chunkedRequest])).forwarded.map fun p => (p.2.method, p.2.target)) =
          [("2;a=\"b".toList, "c\"".toList)] ∧
      ¬ ∀ ss : List Sent, (∀ s ∈ ss, s.Ok) → ∀ exchange, Framed ss (serve exchange (wire ss)) := by
  have hok : ∀ s ∈ [Sent.text chunkedRequest], s.Ok := by simpa using chunkedRequest_ok
  have hforwarded : ((serve (fun _ => ⟨.failed "refused", none⟩)
      (wire [.text chunkedRequest])).forwarded.map fun p => (p.2.method, p.2.target)) =
        [("2;a=\"b".toList, "c\"".toList)] := by decide +kernel
  refine ⟨hok, hforwarded, fun h => ?_⟩
  -- the only method that was sent is another one
  have hsub := (h _ hok fun _ => ⟨.failed "refused", none⟩).subsequence
  have hmap := hsub.map fun c : Content => (c.1, c.2.1)
  rw [List.map_map] at hmap
  have heq : ((serve (fun _ => ⟨.failed "refused", none⟩)
      (wire [.text chunkedRequest])).forwarded.map
        ((fun c : Content => (c.1, c.2.1)) ∘ fun p => p.2.content)) =
        [("2;a=\"b".toList, "c\"".toList)] := hforwarded
  rw [heq] at hmap
  exact absurd (hmap.subset List.mem_cons_self) (by decide)

end Proxy

end Switchback
