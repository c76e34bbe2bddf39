import Switchback.Adapters.Sse

/-!
# SSE framing and the cuts of the network

The same bytes, cut into chunks by the network or frame by frame.  The text is read as a list of
line ends and other characters (`lex`), on which normalization is a map.
-/

namespace Switchback

open Lib

/-! ### Line ends -/

/-- The characters, with `\r\n` as one. -/
def lex : List Char → List (List Char)
  | '\r' :: '\n' :: text => ['\r', '\n'] :: lex text
  | c :: text => [c] :: lex text
  | [] => []

/-- The character that a token normalizes to. -/
def tokChar : List Char → Char
  | '\r' :: _ => '\n'
  | c :: _ => c
  | [] => ' '

def isLineEnd (tok : List Char) : Bool := tokChar tok == '\n'

variable (text : List Char)

theorem lex_flatten : (lex text).flatten = text := by
  fun_induction lex text with
  | case1 text ih => simp [ih]
  | case2 c text h ih => simp [ih]
  | case3 => rfl

theorem tokChar_singleton (c : Char) : tokChar [c] = if c = '\r' then '\n' else c := by
  by_cases hr : c = '\r'
  · rw [if_pos hr, hr]
    rfl
  · rw [if_neg hr, tokChar]
    exact fun h => absurd h hr

theorem normalize_eq_map : normalize text = (lex text).map tokChar := by
  unfold normalize
  fun_induction lex text with
  | case1 text ih =>
    rw [crlfToLf, List.map_cons, List.map_cons, ih]
    rfl
  | case2 c text h ih =>
    rw [crlfToLf, List.map_cons, List.map_cons, ih, tokChar_singleton]
    exact h
  | case3 => rfl

theorem lex_append {a b : List Char} (h : ¬ (a.getLast? = some '\r' ∧ b.head? = some '\n')) :
    lex (a ++ b) = lex a ++ lex b := by
  fun_induction lex a with
  | case1 text ih =>
    cases text with
    | nil => rfl
    | cons d text =>
      rw [List.cons_append, List.cons_append, lex, ih (by simpa using h)]
      rfl
  | case2 c text hc ih =>
    cases text with
    | nil =>
      rw [List.singleton_append, lex]
      · rfl
      · rintro rest rfl rfl
        exact h ⟨rfl, rfl⟩
    | cons d text =>
      rw [List.cons_append, lex, ih (by simpa using h)]
      · rfl
      · intro rest hcr hd
        rw [List.cons_append] at hd
        exact hc text hcr (by rw [(List.cons.inj hd).1])
  | case3 => rfl

theorem lex_of_append {b : List Char} {ts us : List (List Char)}
    (h : lex (ts.flatten ++ b) = ts ++ us) : lex ts.flatten = ts ∧ lex b = us := by
  induction ts with
  | nil => exact ⟨rfl, h⟩
  | cons tok ts ih =>
    rw [List.flatten_cons, List.append_assoc] at h
    generalize hx : tok ++ (ts.flatten ++ b) = x at h
    unfold lex at h
    split at h
    · next text =>
      rw [List.cons_append] at h
      obtain ⟨rfl, htail⟩ := List.cons.inj h
      obtain rfl : ts.flatten ++ b = text := by simpa using hx
      obtain ⟨hts, hus⟩ := ih htail
      refine ⟨?_, hus⟩
      rw [List.flatten_cons, List.cons_append, List.singleton_append, lex, hts]
    · next c text hc =>
      rw [List.cons_append] at h
      obtain ⟨rfl, htail⟩ := List.cons.inj h
      obtain rfl : ts.flatten ++ b = text := by simpa using hx
      obtain ⟨hts, hus⟩ := ih htail
      refine ⟨?_, hus⟩
      rw [List.flatten_cons, List.singleton_append, lex, hts]
      intro rest hcr hrest
      exact hc (rest ++ b) hcr (by rw [hrest, List.cons_append])
    · exact absurd h (by simp)

/-! ### The text frame by frame -/

/-- The frames of a text, each with its line ends as they are, and the unfinished one. -/
def splitFrames (text : List Char) : List (List Char) :=
  (Frames.cut isLineEnd (lex text)).1.map List.flatten ++
    if (Frames.cut isLineEnd (lex text)).2 = [] then []
    else [(Frames.cut isLineEnd (lex text)).2.flatten]

theorem cutText_normalize :
    cutText (normalize text) =
      ((Frames.cut isLineEnd (lex text)).1.map (List.map tokChar),
        (Frames.cut isLineEnd (lex text)).2.map tokChar) := by
  rw [normalize_eq_map]
  exact Frames.cut_map tokChar (· == '\n') (lex text)

theorem lex_pieces {fs : List (List (List Char))} {r : List (List Char)}
    (h : lex (fs.flatten ++ r).flatten = fs.flatten ++ r) :
    (∀ ts ∈ fs, lex ts.flatten = ts) ∧ lex r.flatten = r := by
  induction fs with
  | nil => exact ⟨by simp, h⟩
  | cons ts fs ih =>
    rw [List.flatten_cons, List.append_assoc, List.flatten_append] at h
    obtain ⟨hts, hrest⟩ := lex_of_append h
    obtain ⟨hfs, hr⟩ := ih hrest
    refine ⟨fun us hus => ?_, hr⟩
    rcases List.mem_cons.mp hus with rfl | hus
    · exact hts
    · exact hfs us hus

theorem lex_cut :
    (∀ ts ∈ (Frames.cut isLineEnd (lex text)).1, lex ts.flatten = ts) ∧
      lex (Frames.cut isLineEnd (lex text)).2.flatten = (Frames.cut isLineEnd (lex text)).2 := by
  refine lex_pieces ?_
  rw [Frames.cut_flatten, lex_flatten]

theorem byteLen_normalize_le : byteLen (normalize text) ≤ byteLen text := by
  unfold byteLen
  rw [normalize_eq_map]
  fun_induction lex text with
  | case1 text ih =>
    have hone : Char.utf8Size (tokChar ['\r', '\n']) ≤ Char.utf8Size '\r' := by decide
    simp only [List.map_cons, List.sum_cons] at ih ⊢
    omega
  | case2 c text h ih =>
    have hone : Char.utf8Size (tokChar [c]) ≤ Char.utf8Size c := by
      rw [tokChar_singleton]
      split
      · next hc => rw [hc]; decide
      · exact Nat.le_refl _
    simp only [List.map_cons, List.sum_cons] at ih ⊢
    omega
  | case3 => exact Nat.le_refl _

namespace SseFramer

/-! ### Frame by frame -/

variable {framer : SseFramer} (fromStr : String → Except String Json)

theorem run_cons_of_ok {fromStr : String → Except String Json} {framer' : SseFramer}
    {bytes : List UInt8} {values : List Json}
    (h : framer.push fromStr bytes = (.ok values, framer')) (chunks : List (List UInt8)) :
    framer.run fromStr (bytes :: chunks) =
      (values ++ (framer'.run fromStr chunks).1, (framer'.run fromStr chunks).2) := by
  rw [run, h]

theorem run_cons_of_error {fromStr : String → Except String Json}
    {bytes : List UInt8} {error : String} (h : (framer.push fromStr bytes).1 = .error error)
    (chunks : List (List UInt8)) :
    framer.run fromStr (bytes :: chunks) = ([], some error) := by
  rw [run]
  generalize framer.push fromStr bytes = p at h
  obtain ⟨result, framer'⟩ := p
  subst h
  rfl

theorem push_encode {f : List Char} (hsize : (Utf8.encode f).length < maxSseBufferBytes) :
    ((outcome (frameResults fromStr (normalize f))).2 = none →
      (⟨[]⟩ : SseFramer).push fromStr (Utf8.encode f) =
        (.ok (outcome (frameResults fromStr (normalize f))).1, ⟨(cutText (normalize f)).2⟩)) ∧
    (∀ error, (outcome (frameResults fromStr (normalize f))).2 = some error →
      ((⟨[]⟩ : SseFramer).push fromStr (Utf8.encode f)).1 = .error error) := by
  have hfit : byteLen (normalize (Utf8.lossy (Utf8.encode f))) ≤ maxSseBufferBytes := by
    rw [Utf8.lossy_encode]
    have hle := byteLen_normalize_le f
    rw [Utf8.length_encode] at hsize
    unfold byteLen at hle ⊢
    omega
  have h := push_spec fromStr ⟨[]⟩ hfit
  rw [List.nil_append, Utf8.lossy_encode] at h
  exact h

theorem run_frames {fs last : List (List Char)}
    (hone : ∀ f ∈ fs, cutText (normalize f) = ([normalize f], []))
    (hlast : ∀ f ∈ last, (cutText (normalize f)).1 = []) (hlen : last.length ≤ 1)
    (hsize : ∀ f ∈ fs ++ last, (Utf8.encode f).length < maxSseBufferBytes) :
    (⟨[]⟩ : SseFramer).run fromStr ((fs ++ last).map Utf8.encode) =
      outcome (fs.map fun f => parseSseFrame fromStr (normalize f)) := by
  induction fs with
  | nil =>
    match last, hlen with
    | [], _ => rfl
    | [f], _ =>
      have hnil : frameResults fromStr (normalize f) = [] := by
        unfold frameResults
        rw [hlast f List.mem_cons_self]
        rfl
      have hpush := (push_encode fromStr (hsize f (by simp))).1 (by rw [hnil]; rfl)
      rw [List.nil_append, List.map_singleton, run_cons_of_ok hpush, hnil]
      rfl
  | cons f fs ih =>
    have hih := ih (fun g hg => hone g (List.mem_cons_of_mem f hg))
      (fun g hg => hsize g (List.mem_cons_of_mem f hg))
    have hcut := hone f List.mem_cons_self
    have hres : frameResults fromStr (normalize f) = [parseSseFrame fromStr (normalize f)] := by
      unfold frameResults
      rw [hcut]
      rfl
    obtain ⟨hok, herr⟩ := push_encode fromStr (hsize f List.mem_cons_self)
    rw [hres, hcut] at hok
    rw [hres] at herr
    rw [List.cons_append, List.map_cons, List.map_cons]
    cases hparse : parseSseFrame fromStr (normalize f) with
    | error e =>
      rw [hparse] at herr
      rw [run_cons_of_error (herr e rfl)]
      rfl
    | ok value =>
      rw [hparse] at hok
      cases value with
      | none => rw [run_cons_of_ok (hok rfl), hih]; rfl
      | some value => rw [run_cons_of_ok (hok rfl), hih]; rfl

/-- **Frame by frame** the framer delivers the values of the frames. -/
theorem run_splitFrames {text : List Char}
    (hsize : ∀ f ∈ splitFrames text, (Utf8.encode f).length < maxSseBufferBytes) :
    (⟨[]⟩ : SseFramer).run fromStr ((splitFrames text).map Utf8.encode) =
      outcome (frameResults fromStr (normalize text)) := by
  obtain ⟨hpieces, hrest⟩ := lex_cut text
  have hnorm (ts : List (List Char)) (hts : lex ts.flatten = ts) :
      normalize ts.flatten = ts.map tokChar := by rw [normalize_eq_map, hts]
  unfold frameResults
  rw [cutText_normalize, List.map_map]
  unfold splitFrames at hsize ⊢
  rw [run_frames fromStr ?_ ?_ ?_ hsize, List.map_map]
  · refine congrArg outcome (List.map_congr_left fun ts hts => ?_)
    rw [Function.comp_apply, Function.comp_apply, hnorm ts (hpieces ts hts)]
  · intro f hf
    obtain ⟨ts, hts, rfl⟩ := List.mem_map.mp hf
    rw [cutText_normalize, hpieces ts hts, hnorm ts (hpieces ts hts), Frames.cut_frame hts]
    rfl
  · intro f hf
    split at hf
    · simp at hf
    · rw [List.mem_singleton.mp hf, cutText_normalize, hrest, Frames.cut_rest]
      rfl
  · split <;> simp

/-! ### Any cuts -/

/-- What a chunk may be, with the bytes after it: UTF-8 in itself, not cut between `\r` and `\n`,
within the buffer's bound together with the unfinished text, and without a value before its first
error frame. -/
def CutOk (fromStr : String → Except String Json) (framer : SseFramer) (bytes : List UInt8)
    (chunks : List (List UInt8)) : Prop :=
  Utf8.Valid bytes ∧ ¬ (bytes.getLast? = some 13 ∧ chunks.flatten.head? = some 10) ∧
    byteLen (framer.buffer ++ normalize (Utf8.lossy bytes)) ≤ maxSseBufferBytes ∧
    ((outcome (frameResults fromStr (framer.buffer ++ normalize (Utf8.lossy bytes)))).2 ≠ none →
      (outcome (frameResults fromStr (framer.buffer ++ normalize (Utf8.lossy bytes)))).1 = [])

instance (fromStr : String → Except String Json) (framer : SseFramer) (bytes : List UInt8)
    (chunks : List (List UInt8)) : Decidable (framer.CutOk fromStr bytes chunks) :=
  inferInstanceAs (Decidable (_ ∧ _ ∧ _ ∧ _))

/-- Every chunk up to the first error meets its condition. -/
def RunOk (fromStr : String → Except String Json) (framer : SseFramer) :
    List (List UInt8) → Prop
  | [] => True
  | bytes :: chunks =>
      framer.CutOk fromStr bytes chunks ∧
        ((framer.push fromStr bytes).1.isOk = true →
          (framer.push fromStr bytes).2.RunOk fromStr chunks)

instance decidableRunOk (fromStr : String → Except String Json) :
    (framer : SseFramer) → (chunks : List (List UInt8)) → Decidable (framer.RunOk fromStr chunks)
  | _, [] => .isTrue trivial
  | framer, bytes :: chunks =>
      have := decidableRunOk fromStr (framer.push fromStr bytes).2 chunks
      inferInstanceAs (Decidable (_ ∧ (_ → _)))

theorem normalize_append {a b : List UInt8} (ha : Utf8.Valid a) (hb : Utf8.Valid b)
    (h : ¬ (a.getLast? = some 13 ∧ b.head? = some 10)) :
    normalize (Utf8.lossy (a ++ b)) =
      normalize (Utf8.lossy a) ++ normalize (Utf8.lossy b) := by
  have hcut : ¬ ((Utf8.lossy a).getLast? = some '\r' ∧ (Utf8.lossy b).head? = some '\n') := by
    rintro ⟨hlast, hhead⟩
    refine h ⟨?_, ?_⟩
    · obtain ⟨init, hinit⟩ := List.getLast?_eq_some_iff.mp hlast
      rw [← ha, hinit, Utf8.encode_append]
      exact List.getLast?_concat
    · obtain ⟨tail, htail⟩ := List.head?_eq_some_iff.mp hhead
      rw [← hb, htail]
      rfl
  rw [ha.lossy_append, normalize_eq_map, lex_append hcut, List.map_append, ← normalize_eq_map,
    ← normalize_eq_map]

/-- **A run of good cuts** delivers the values of the frames of the whole text. -/
theorem run_of_runOk {chunks : List (List UInt8)} (hbuf : (cutText framer.buffer).1 = [])
    (hvalid : Utf8.Valid chunks.flatten) (hok : framer.RunOk fromStr chunks) :
    framer.run fromStr chunks =
      outcome (frameResults fromStr (framer.buffer ++ normalize (Utf8.lossy chunks.flatten))) := by
  induction chunks generalizing framer with
  | nil =>
    have hnil : frameResults fromStr (framer.buffer ++ []) = [] := by
      unfold frameResults
      rw [List.append_nil, hbuf]
      rfl
    exact (congrArg outcome hnil).symm
  | cons bytes chunks ih =>
    obtain ⟨⟨hb, hcrlf, hfit, hloss⟩, hrest⟩ := hok
    rw [List.flatten_cons] at hvalid
    have hvalid' := hb.of_append hvalid
    obtain ⟨hnone, hsome⟩ := push_spec fromStr framer hfit
    rw [List.flatten_cons, normalize_append hb hvalid' hcrlf, ← List.append_assoc]
    -- the frames of the whole are those the chunk completes and those of the rest
    have hsplit : frameResults fromStr (framer.buffer ++ normalize (Utf8.lossy bytes) ++
          normalize (Utf8.lossy chunks.flatten)) =
        frameResults fromStr (framer.buffer ++ normalize (Utf8.lossy bytes)) ++
          frameResults fromStr ((cutText (framer.buffer ++ normalize (Utf8.lossy bytes))).2 ++
            normalize (Utf8.lossy chunks.flatten)) := by
      unfold frameResults cutText
      rw [Frames.cut_append, List.map_append]
    rw [hsplit]
    cases hres : (outcome (frameResults fromStr
        (framer.buffer ++ normalize (Utf8.lossy bytes)))).2 with
    | none =>
      have hpush := hnone hres
      rw [hpush] at hrest
      have hrun := ih (by unfold cutText; rw [Frames.cut_rest]) hvalid' (hrest rfl)
      rw [run_cons_of_ok hpush, hrun, outcome_append_of_none hres]
    | some error =>
      rw [run_cons_of_error (hsome error hres), outcome_append_of_some hres]
      exact Prod.ext (hloss (by rw [hres]; simp)).symm hres.symm

/-- **Good cuts do not show.**  The values delivered up to the first error, and that error, are
those of the frame by frame run over the same bytes. -/
theorem run_eq_frame_by_frame (fromStr : String → Except String Json)
    (chunks : List (List UInt8)) (text : List Char) (hb : chunks.flatten = Utf8.encode text)
    (hsize : ∀ f ∈ splitFrames text, (Utf8.encode f).length < maxSseBufferBytes)
    (hok : (⟨[]⟩ : SseFramer).RunOk fromStr chunks) :
    (⟨[]⟩ : SseFramer).run fromStr chunks =
      (⟨[]⟩ : SseFramer).run fromStr ((splitFrames text).map Utf8.encode) := by
  have hvalid : Utf8.Valid chunks.flatten := hb ▸ Utf8.valid_encode text
  rw [run_of_runOk fromStr rfl hvalid hok, hb, Utf8.lossy_encode, run_splitFrames fromStr hsize]
  rfl

/-- What the JSON parser gives for the payloads below. -/
def sampleJson (data : String) : Except String Json :=
  if data = "\x7b\"a\":1\x7d" ∨ data = "\x7b\"a\":\n1\x7d" then
    .ok (Json.mkObj [("a", Json.ofNat 1)])
  else if data = "\x7b\"error\":\"overloaded\"\x7d" then
    .ok (Json.mkObj [("error", .str "overloaded")])
  else if data = "\"é\"" then .ok (.str "é")
  else if data = "\"\uFFFD\uFFFD\"" then .ok (.str "\uFFFD\uFFFD")
  else if data = "\x7b\"a\":" then .error "EOF while parsing a value at line 1 column 5"
  else .error "expected value at line 1 column 1"

/-- Three frames: a value, a comment, a value. -/
def sampleText : List Char :=
  "data: \x7b\"a\":1\x7d\r\n\r\n: ping\n\ndata: \"é\"\r\rdata".toList

/-- The bytes of a text, cut at a position. -/
def cutAt (n : ℕ) (text : List Char) : List (List UInt8) :=
  [(Utf8.encode text).take n, (Utf8.encode text).drop n]

/-- The sample is cut after the first `\r\n`, in the middle of its first frame. -/
theorem run_eq_frame_by_frame_sample :
    (⟨[]⟩ : SseFramer).run sampleJson (cutAt 15 sampleText) =
      (⟨[]⟩ : SseFramer).run sampleJson ((splitFrames sampleText).map Utf8.encode) :=
  run_eq_frame_by_frame sampleJson (cutAt 15 sampleText) sampleText (by decide +kernel)
    (by decide +kernel) (by decide +kernel)

/-- A cut inside `é`, a cut between `\r` and `\n`, and no cut between a value and an error. -/
theorem cuts_show :
    (⟨[]⟩ : SseFramer).run sampleJson (cutAt 8 "data: \"é\"\n\n".toList) ≠
        (⟨[]⟩ : SseFramer).run sampleJson
          ((splitFrames "data: \"é\"\n\n".toList).map Utf8.encode) ∧
      (⟨[]⟩ : SseFramer).run sampleJson
          (cutAt 12 "data: \x7b\"a\":\r\ndata: 1\x7d\r\n\r\n".toList) ≠
        (⟨[]⟩ : SseFramer).run sampleJson
          ((splitFrames "data: \x7b\"a\":\r\ndata: 1\x7d\r\n\r\n".toList).map Utf8.encode) ∧
      (⟨[]⟩ : SseFramer).run sampleJson
          [Utf8.encode
            "data: \x7b\"a\":1\x7d\n\ndata: \x7b\"error\":\"overloaded\"\x7d\n\n".toList] ≠
        (⟨[]⟩ : SseFramer).run sampleJson
          ((splitFrames
            "data: \x7b\"a\":1\x7d\n\ndata: \x7b\"error\":\"overloaded\"\x7d\n\n".toList).map
              Utf8.encode) := by
  decide +kernel

end SseFramer

end Switchback
