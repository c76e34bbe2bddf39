import Switchback.Lib.Slots
import Switchback.Protocols.OpenAi
import Switchback.Runtime.Collect

/-!
# Transcripts

What a client keeps of a stream: the text, the reasoning and the tool calls in the order they
started.  The pieces of the upstream chunks are followed three times: attributed to their own
calls, as a Messages client shows them and as a Responses client shows them.
-/

namespace Switchback

open Lib

structure Transcript where
  text : String := ""
  reasoning : String := ""
  calls : List CollectedCall := []
  deriving DecidableEq

def CollectedCall.append (json : String) (call : CollectedCall) : CollectedCall :=
  { call with args := call.args ++ json }

/-! ### Pieces -/

/-- What a chunk brings: text, a fragment of a tool call, the end. -/
inductive Piece where
  | text (text : String)
  | fragment (f : ToolCallFragment)
  | finish

/-- The pieces of the first choice of a chunk, in the order they are read. -/
def pieces (chunk : Json) : List Piece :=
  (chunkChoice chunk).elim [] fun choice =>
    .text choice.content :: choice.toolCalls.map .fragment ++
      (if choice.finish.isSome then [.finish] else [])

/-- Where the pieces so far have led. -/
structure Track where
  seen : List ℕ := []
  cur : Option ℕ := none
  textSince : Bool := false
  finished : Bool := false

namespace Track

/-- A call that was not seen before is the current one. -/
def register (t : Track) (index : ℕ) : Track :=
  if index ∈ t.seen then t
  else { t with seen := t.seen ++ [index], cur := some index, textSince := false }

def step (t : Track) : Piece → Track
  | .text text => if text = "" then t else { t with textSince := true }
  | .fragment f => t.register f.index
  | .finish => { t with finished := true }

/-- The calls are distinct and the current one is the last. -/
structure Good (t : Track) : Prop where
  nodup : t.seen.Nodup
  cur_eq : t.cur = t.seen.getLast?

theorem mem_register (t : Track) (index : ℕ) : index ∈ (t.register index).seen := by
  unfold register
  split
  · assumption
  · simp

theorem Good.register {t : Track} (h : t.Good) (index : ℕ) : (t.register index).Good := by
  unfold Track.register
  split
  · exact h
  · next hi =>
    refine ⟨?_, by simp⟩
    rw [List.nodup_append]
    refine ⟨h.nodup, List.nodup_singleton _, ?_⟩
    intro a ha b hb
    rw [List.mem_singleton.mp hb]
    exact fun hab => hi (hab ▸ ha)

theorem Good.step {t : Track} (h : t.Good) (piece : Piece) : (t.step piece).Good := by
  cases piece with
  | text text =>
    show (if text = "" then t else { t with textSince := true }).Good
    split
    · exact h
    · exact ⟨h.nodup, h.cur_eq⟩
  | fragment f => exact h.register f.index
  | finish => exact ⟨h.nodup, h.cur_eq⟩

@[simp] theorem register_finished (t : Track) (index : ℕ) :
    (t.register index).finished = t.finished := by
  unfold register
  split <;> rfl

end Track

/-! ### The three transcripts -/

/-- Announce a call that was not seen before. -/
def announce (t : Track) (tape : Transcript) (f : ToolCallFragment) : Transcript :=
  if f.index ∈ t.seen then tape
  else { tape with calls := tape.calls ++ [{ id := f.id, name := f.name, args := "" }] }

/-- Append to the call at a position. -/
def appendAt (tape : Transcript) (position : ℕ) (json : String) : Transcript :=
  { tape with calls := tape.calls.modify position (CollectedCall.append json) }

/-- Every fragment to its own call. -/
def own (t : Track) (tape : Transcript) : Piece → Transcript
  | .text text => { tape with text := tape.text ++ text }
  | .fragment f =>
      f.arguments.elim (announce t tape f) fun json =>
        appendAt (announce t tape f) ((t.register f.index).seen.idxOf f.index) json
  | .finish => tape

/-- The two surfaces that a stream is transcoded to. -/
inductive Surface where
  | messages
  | responses
  deriving DecidableEq

/-- Where a surface puts a fragment: Messages only into the open block, Responses into the
current call. -/
def place (surface : Surface) (t : Track) (tape : Transcript) (index : ℕ) (json : String) :
    Transcript :=
  match surface with
  | .messages =>
      if t.cur = some index ∧ t.textSince = false then appendAt tape (t.seen.idxOf index) json
      else tape
  | .responses => appendAt tape (tape.calls.length - 1) json

/-- What a surface shows, up to the first end. -/
def shown (surface : Surface) (t : Track) (tape : Transcript) (piece : Piece) : Transcript :=
  if t.finished then tape
  else
    match piece with
    | .text text => { tape with text := tape.text ++ text }
    | .fragment f =>
        f.arguments.elim (announce t tape f) fun json =>
          place surface (t.register f.index) (announce t tape f) f.index json
    | .finish => tape

/-- Follow the pieces, one transcript step for each. -/
def follow (evolve : Track → Transcript → Piece → Transcript) (t : Track) (tape : Transcript) :
    List Piece → Transcript
  | [] => tape
  | piece :: rest => follow evolve (t.step piece) (evolve t tape piece) rest

def Track.run (t : Track) (rest : List Piece) : Track := rest.foldl Track.step t

theorem follow_append (evolve : Track → Transcript → Piece → Transcript) (t : Track)
    (tape : Transcript) (a b : List Piece) :
    follow evolve t tape (a ++ b) = follow evolve (t.run a) (follow evolve t tape a) b := by
  induction a generalizing t tape with
  | nil => rfl
  | cons piece a ih => exact ih _ _

theorem Track.run_append (t : Track) (a b : List Piece) : t.run (a ++ b) = (t.run a).run b :=
  List.foldl_append

/-! ### What a surface shows right -/

/-- Nothing but empty fragments of known calls after the end; a fragment with content while its
call is the current one, and for Messages without text since the call started. -/
def PieceOk (surface : Surface) (t : Track) : Piece → Prop
  | .text text => text ≠ "" → t.finished = false
  | .fragment f =>
      (t.finished = true → f.index ∈ t.seen) ∧
        (f.arguments.getD "" ≠ "" → t.finished = false ∧
          (t.register f.index).cur = some f.index ∧
          (surface = .messages → (t.register f.index).textSince = false))
  | .finish => True

instance (surface : Surface) (t : Track) : (piece : Piece) → Decidable (PieceOk surface t piece)
  | .text _ => inferInstanceAs (Decidable (_ → _))
  | .fragment _ => inferInstanceAs (Decidable (_ ∧ _))
  | .finish => .isTrue trivial

def AllOk (surface : Surface) (t : Track) : List Piece → Prop
  | [] => True
  | piece :: rest => PieceOk surface t piece ∧ AllOk surface (t.step piece) rest

/-- The weight of a call: the length of its arguments. -/
def callWeight (call : CollectedCall) : ℕ := call.args.length

theorem callWeight_append (json : String) (call : CollectedCall) :
    callWeight (call.append json) = callWeight call + json.length :=
  String.length_append _ _

theorem append_empty (call : CollectedCall) : call.append "" = call := by
  unfold CollectedCall.append
  rw [String.append_empty]

theorem appendAt_empty (tape : Transcript) (position : ℕ) : appendAt tape position "" = tape := by
  have hid : CollectedCall.append "" = id := funext append_empty
  unfold appendAt
  rw [hid, List.modify_id]

/-- The invariant of the comparison: `x` is what a surface shows, `r` what it should. -/
structure Compared (t : Track) (x r : Transcript) : Prop where
  good : t.Good
  length_own : r.calls.length = t.seen.length
  length_shown : t.finished = false → x.calls.length = t.seen.length
  text_le : x.text.length ≤ r.text.length
  calls_le : x.calls.length ≤ r.calls.length
  below : Slots.Below callWeight x.calls r.calls

/-- `x` misses something of `r`. -/
def Lags (x r : Transcript) : Prop :=
  x.text.length < r.text.length ∨ x.calls.length < r.calls.length ∨
    Slots.Behind callWeight x.calls r.calls

variable {r x : Transcript} (surface : Surface)

theorem Lags.ne (h : Lags x r) : x ≠ r := by
  rintro rfl
  rcases h with h | h | h
  · exact absurd h (Nat.lt_irrefl _)
  · exact absurd h (Nat.lt_irrefl _)
  · exact h.ne rfl

/-! ### One piece -/

section

variable (t : Track) (tape : Transcript) (f : ToolCallFragment)

theorem announce_text : (announce t tape f).text = tape.text := by
  unfold announce
  split <;> rfl

theorem announce_length :
    (announce t tape f).calls.length + t.seen.length =
      tape.calls.length + (t.register f.index).seen.length := by
  unfold announce Track.register
  split
  · rfl
  · simp only [List.length_append, List.length_singleton]
    omega

theorem announce_weight (j : ℕ) :
    Slots.prefixWeight callWeight (announce t tape f).calls j =
      Slots.prefixWeight callWeight tape.calls j := by
  unfold announce
  split
  · rfl
  · have hz : callWeight { id := f.id, name := f.name, args := "" } = 0 := rfl
    exact Slots.prefixWeight_concat hz _ j

theorem register_length_le : t.seen.length ≤ (t.register f.index).seen.length := by
  unfold Track.register
  split
  · exact Nat.le_refl _
  · simp

end

theorem appendAt_length (tape : Transcript) (position : ℕ) (json : String) :
    (appendAt tape position json).calls.length = tape.calls.length :=
  List.length_modify ..

theorem appendAt_weight (tape : Transcript) (position : ℕ) (json : String) (j : ℕ) :
    Slots.prefixWeight callWeight (appendAt tape position json).calls j =
      Slots.prefixWeight callWeight tape.calls j +
        if position < j ∧ position < tape.calls.length then json.length else 0 :=
  Slots.prefixWeight_modify (callWeight_append json) _ _ _

theorem place_spec {t : Track} (hgood : t.Good) {tape : Transcript}
    (hlen : tape.calls.length = t.seen.length) {index : ℕ} (hmem : index ∈ t.seen)
    (json : String) :
    (place surface t tape index json).text = tape.text ∧
    (place surface t tape index json).calls.length = tape.calls.length ∧
    (t.cur = some index ∧ (surface = .messages → t.textSince = false) →
      place surface t tape index json = appendAt tape (t.seen.idxOf index) json) ∧
    (¬ (t.cur = some index ∧ (surface = .messages → t.textSince = false)) →
      ∀ j, Slots.prefixWeight callWeight (place surface t tape index json).calls j =
        Slots.prefixWeight callWeight tape.calls j + if t.seen.idxOf index + 1 < j ∧
          surface = .responses ∧ tape.calls.length - 1 < j then json.length else 0) := by
  have hidx : t.seen.idxOf index < t.seen.length := List.idxOf_lt_length_of_mem hmem
  have hlast := Slots.idxOf_eq_last_iff hgood.nodup hmem
  rw [← hgood.cur_eq] at hlast
  cases surface with
  | messages =>
    unfold place
    by_cases hok : t.cur = some index ∧ t.textSince = false
    · rw [if_pos hok]
      exact ⟨rfl, appendAt_length .., fun _ => rfl,
        fun hn => absurd ⟨hok.1, fun _ => hok.2⟩ hn⟩
    · rw [if_neg hok]
      exact ⟨rfl, rfl, fun h => absurd ⟨h.1, h.2 rfl⟩ hok, fun _ j => by simp⟩
  | responses =>
    unfold place
    refine ⟨rfl, appendAt_length .., fun h => ?_, fun hn j => ?_⟩
    · rw [hlen, hlast.mpr h.1]
    · have hne : t.seen.idxOf index ≠ t.seen.length - 1 := fun h =>
        hn ⟨hlast.mp h, fun h => absurd h (by decide)⟩
      dsimp only
      rw [appendAt_weight]
      congr 1
      by_cases hj : tape.calls.length - 1 < j
      · rw [if_pos ⟨hj, by omega⟩, if_pos ⟨by omega, rfl, hj⟩]
      · rw [if_neg fun h => hj h.1, if_neg fun h => hj h.2.2]

theorem length_pos_of_ne_empty {text : String} (h : text ≠ "") : 0 < text.length := by
  rcases Nat.eq_zero_or_pos text.length with hz | hp
  · exact absurd (String.length_eq_zero_iff.mp hz) h
  · exact hp

theorem place_empty (t : Track) (tape : Transcript) (index : ℕ) :
    place surface t tape index "" = tape := by
  cases surface with
  | messages =>
    show (if t.cur = some index ∧ t.textSince = false then appendAt tape _ "" else tape) = tape
    split
    · exact appendAt_empty ..
    · rfl
  | responses => exact appendAt_empty ..

/-- A fragment without arguments counts as one with empty arguments. -/
theorem own_fragment (t : Track) (tape : Transcript) (f : ToolCallFragment) :
    own t tape (.fragment f) =
      appendAt (announce t tape f) ((t.register f.index).seen.idxOf f.index)
        (f.arguments.getD "") := by
  cases hf : f.arguments with
  | none => rw [Option.getD_none, appendAt_empty, own, hf]; rfl
  | some json => rw [Option.getD_some, own, hf]; rfl

theorem shown_fragment {t : Track} (ht : t.finished = false)
    (tape : Transcript) (f : ToolCallFragment) :
    shown surface t tape (.fragment f) =
      place surface (t.register f.index) (announce t tape f) f.index
        (f.arguments.getD "") := by
  unfold shown
  rw [if_neg (by simp [ht])]
  cases hf : f.arguments with
  | none => rw [Option.getD_none, place_empty]; simp [hf]
  | some json => simp [hf]

theorem shown_of_finished {t : Track} (ht : t.finished = true)
    (tape : Transcript) (piece : Piece) : shown surface t tape piece = tape := by
  unfold shown
  rw [if_pos ht]

theorem own_fragment_spec {t : Track} (hr : r.calls.length = t.seen.length) (f : ToolCallFragment) :
    (own t r (.fragment f)).text = r.text ∧
      (own t r (.fragment f)).calls.length = (t.register f.index).seen.length ∧
      ∀ j, Slots.prefixWeight callWeight (own t r (.fragment f)).calls j =
        Slots.prefixWeight callWeight r.calls j +
          if (t.register f.index).seen.idxOf f.index < j then (f.arguments.getD "").length
          else 0 := by
  have hlen : (announce t r f).calls.length = (t.register f.index).seen.length := by
    have := announce_length t r f
    omega
  have hidx := List.idxOf_lt_length_of_mem (t.mem_register f.index)
  rw [own_fragment]
  refine ⟨announce_text t r f, by rw [appendAt_length, hlen], fun j => ?_⟩
  rw [appendAt_weight, announce_weight, hlen]
  congr 1
  by_cases hj : (t.register f.index).seen.idxOf f.index < j
  · rw [if_pos ⟨hj, hidx⟩, if_pos hj]
  · rw [if_neg fun h => hj h.1, if_neg hj]

/-- What text does to the comparison: it keeps it, keeps a lag, and makes one where it is not
shown right. -/
theorem Compared.step_text {t : Track} (h : Compared t x r) (text : String) :
    Compared (t.step (.text text)) (shown surface t x (.text text)) (own t r (.text text)) ∧
      (Lags x r ∨ ¬ PieceOk surface t (.text text) →
        Lags (shown surface t x (.text text)) (own t r (.text text))) := by
  have hgood := h.good.step (.text text)
  have hseen : (t.step (.text text)).seen = t.seen := by
    show (if text = "" then t else { t with textSince := true }).seen = t.seen
    split <;> rfl
  have hfin : (t.step (.text text)).finished = t.finished := by
    show (if text = "" then t else { t with textSince := true }).finished = t.finished
    split <;> rfl
  have hown : (own t r (.text text)).text.length = r.text.length + text.length :=
    String.length_append _ _
  have htext := h.text_le
  cases ht : t.finished with
  | true =>
    rw [shown_of_finished surface ht]
    refine ⟨⟨hgood, by rw [hseen]; exact h.length_own, ?_, by omega, h.calls_le, h.below⟩, ?_⟩
    · intro hf
      rw [hfin, ht] at hf
      exact absurd hf (by simp)
    · rintro ((hlag | hlag | hlag) | hbad)
      · exact .inl (by omega)
      · exact .inr (.inl hlag)
      · exact .inr (.inr hlag)
      · -- text after the end
        have hne : text ≠ "" := fun he => hbad fun hn => absurd he hn
        have := length_pos_of_ne_empty hne
        exact .inl (by omega)
  | false =>
    have hshown : shown surface t x (.text text) = { x with text := x.text ++ text } := by
      unfold shown
      rw [if_neg (by simp [ht])]
    have hlen : ({ x with text := x.text ++ text } : Transcript).text.length =
        x.text.length + text.length := String.length_append _ _
    rw [hshown]
    refine ⟨⟨hgood, by rw [hseen]; exact h.length_own,
      fun _ => by rw [hseen]; exact h.length_shown ht, by omega, h.calls_le, h.below⟩, ?_⟩
    rintro ((hlag | hlag | hlag) | hbad)
    · exact .inl (by omega)
    · exact .inr (.inl hlag)
    · exact .inr (.inr hlag)
    · exact absurd (fun _ => ht) hbad

theorem Compared.step_fragment {t : Track} (h : Compared t x r) (f : ToolCallFragment) :
    Compared (t.step (.fragment f)) (shown surface t x (.fragment f)) (own t r (.fragment f)) ∧
      (Lags x r ∨ ¬ PieceOk surface t (.fragment f) →
        Lags (shown surface t x (.fragment f)) (own t r (.fragment f))) := by
  have hgood := h.good.register f.index
  obtain ⟨hrtext, hrlen, hrweight⟩ := own_fragment_spec h.length_own f
  have hle := register_length_le t f
  have htext := h.text_le
  have hcalls := h.calls_le
  have hown := h.length_own
  have hidx := List.idxOf_lt_length_of_mem (t.mem_register f.index)
  generalize hn : (f.arguments.getD "").length = n at hrweight
  have hpos (hne : f.arguments.getD "" ≠ "") : 0 < n := hn ▸ length_pos_of_ne_empty hne
  cases ht : t.finished with
  | true =>
    rw [shown_of_finished surface ht]
    refine ⟨⟨hgood, hrlen, ?_, by rw [hrtext]; exact htext, by omega, ?_⟩, ?_⟩
    · intro hf
      rw [Track.step, Track.register_finished, ht] at hf
      exact absurd hf (by simp)
    · intro j
      have := h.below j
      rw [hrweight]
      omega
    · rintro ((hlag | hlag | ⟨j, hlag⟩) | hbad)
      · exact .inl (by rw [hrtext]; exact hlag)
      · exact .inr (.inl (by omega))
      · exact .inr (.inr ⟨j, by rw [hrweight]; omega⟩)
      · by_cases hnew : f.index ∈ t.seen
        · -- a fragment after the end
          have hne : f.arguments.getD "" ≠ "" := by
            intro he
            exact hbad ⟨fun _ => hnew, fun hn => absurd he hn⟩
          refine .inr (.inr ⟨(t.register f.index).seen.idxOf f.index + 1, ?_⟩)
          have := h.below ((t.register f.index).seen.idxOf f.index + 1)
          have := hpos hne
          rw [hrweight, if_pos (Nat.lt_succ_self _)]
          omega
        · -- a call after the end
          refine .inr (.inl ?_)
          have hone : (t.register f.index).seen.length = t.seen.length + 1 := by
            unfold Track.register
            rw [if_neg hnew, List.length_append, List.length_singleton]
          omega
  | false =>
    have hx := h.length_shown ht
    have hxlen : (announce t x f).calls.length = (t.register f.index).seen.length := by
      have := announce_length t x f
      omega
    rw [shown_fragment surface ht]
    obtain ⟨hptext, hplen, hpok, hpbad⟩ :=
      place_spec surface hgood hxlen (t.mem_register f.index) (f.arguments.getD "")
    rw [announce_text] at hptext
    by_cases hok : (t.register f.index).cur = some f.index ∧
        (surface = .messages → (t.register f.index).textSince = false)
    · -- both append to the same call
      have hweight (j : ℕ) : Slots.prefixWeight callWeight
          (place surface (t.register f.index) (announce t x f) f.index
            (f.arguments.getD "")).calls j =
          Slots.prefixWeight callWeight x.calls j +
            if (t.register f.index).seen.idxOf f.index < j then n else 0 := by
        rw [hpok hok, appendAt_weight, announce_weight, hxlen, hn]
        congr 1
        by_cases hj : (t.register f.index).seen.idxOf f.index < j
        · rw [if_pos ⟨hj, hidx⟩, if_pos hj]
        · rw [if_neg fun h => hj h.1, if_neg hj]
      refine ⟨⟨hgood, hrlen, fun _ => by rw [hplen, hxlen]; rfl,
        by rw [hptext, hrtext]; exact htext, by omega, fun j => ?_⟩, ?_⟩
      · have := h.below j
        rw [hweight, hrweight]
        omega
      · rintro ((hlag | hlag | ⟨j, hlag⟩) | hbad)
        · exact .inl (by rw [hptext, hrtext]; exact hlag)
        · exact .inr (.inl (by omega))
        · exact .inr (.inr ⟨j, by rw [hweight, hrweight]; omega⟩)
        · refine absurd ⟨fun hf => ?_, fun _ => ⟨ht, hok⟩⟩ hbad
          rw [ht] at hf
          exact absurd hf (by simp)
    · -- the fragment goes to a later call or is dropped
      have hweight := hpbad hok
      simp only [announce_weight, hn, hxlen] at hweight
      refine ⟨⟨hgood, hrlen, fun _ => by rw [hplen, hxlen]; rfl,
        by rw [hptext, hrtext]; exact htext, by omega, fun j => ?_⟩, ?_⟩
      · have := h.below j
        rw [hweight, hrweight]
        split_ifs <;> omega
      · rintro ((hlag | hlag | ⟨j, hlag⟩) | hbad)
        · exact .inl (by rw [hptext, hrtext]; exact hlag)
        · exact .inr (.inl (by omega))
        · refine .inr (.inr ⟨j, ?_⟩)
          rw [hweight, hrweight]
          split_ifs <;> omega
        · have hne : f.arguments.getD "" ≠ "" := by
            intro he
            refine hbad ⟨fun hf => ?_, fun hn => absurd he hn⟩
            rw [ht] at hf
            exact absurd hf (by simp)
          have := hpos hne
          refine .inr (.inr ⟨(t.register f.index).seen.idxOf f.index + 1, ?_⟩)
          have := h.below ((t.register f.index).seen.idxOf f.index + 1)
          rw [hweight, hrweight, if_pos (Nat.lt_succ_self _),
            if_neg fun h => absurd h.1 (Nat.lt_irrefl _)]
          omega

/-- **One piece**: the comparison is kept, a lag is kept, and a piece that is not shown right makes
one. -/
theorem Compared.step {t : Track} (h : Compared t x r) (piece : Piece) :
    Compared (t.step piece) (shown surface t x piece) (own t r piece) ∧
      (Lags x r ∨ ¬ PieceOk surface t piece →
        Lags (shown surface t x piece) (own t r piece)) := by
  cases piece with
  | text text => exact h.step_text surface text
  | fragment f => exact h.step_fragment surface f
  | finish =>
    have hshown : shown surface t x .finish = x := by
      unfold shown
      split <;> rfl
    rw [hshown]
    refine ⟨⟨h.good.step .finish, h.length_own, fun hf => ?_, h.text_le, h.calls_le, h.below⟩, ?_⟩
    · exact absurd (show true = false from hf) (by decide)
    · rintro (hlag | hbad)
      · exact hlag
      · exact absurd trivial hbad

theorem shown_eq_own {surface : Surface} {t : Track} (hgood : t.Good) {tape : Transcript}
    (hlen : tape.calls.length = t.seen.length) {piece : Piece}
    (hok : PieceOk surface t piece) : shown surface t tape piece = own t tape piece := by
  cases ht : t.finished with
  | true =>
    rw [shown_of_finished surface ht]
    cases piece with
    | text text =>
      by_cases he : text = ""
      · rw [he, own, String.append_empty]
      · exact absurd (hok he) (by simp [ht])
    | fragment f =>
      have hseen := hok.1 ht
      have he : f.arguments.getD "" = "" := by
        by_contra hne
        exact absurd (hok.2 hne).1 (by simp [ht])
      rw [own_fragment, he, appendAt_empty, announce, if_pos hseen]
    | finish => rfl
  | false =>
    cases piece with
    | text text => simp [shown, own, ht]
    | fragment f =>
      rw [shown_fragment surface ht, own_fragment]
      by_cases he : f.arguments.getD "" = ""
      · rw [he, place_empty, appendAt_empty]
      · have hxlen : (announce t tape f).calls.length = (t.register f.index).seen.length := by
          have := announce_length t tape f
          omega
        obtain ⟨-, -, hpok, -⟩ := place_spec surface (hgood.register f.index) hxlen
          (t.mem_register f.index) (f.arguments.getD "")
        exact hpok (hok.2 he).2
    | finish => simp [shown, own]

theorem follow_shown_ne_of_lags {t : Track}
    (h : Compared t x r) (hlag : Lags x r) (rest : List Piece) :
    follow (shown surface) t x rest ≠ follow own t r rest := by
  induction rest generalizing t x r with
  | nil => exact hlag.ne
  | cons piece rest ih =>
    obtain ⟨hstep, hkeep⟩ := h.step surface piece
    exact ih hstep (hkeep (.inl hlag))

theorem compared_self {t : Track} {tape : Transcript} (hgood : t.Good)
    (hlen : tape.calls.length = t.seen.length) : Compared t tape tape :=
  ⟨hgood, hlen, fun _ => hlen, Nat.le_refl _, Nat.le_refl _, Slots.Below.refl _⟩

/-- **A surface shows the pieces right exactly when each of them is so.** -/
theorem follow_shown_eq_iff {t : Track} {tape : Transcript} (hgood : t.Good)
    (hlen : tape.calls.length = t.seen.length) (rest : List Piece) :
    follow (shown surface) t tape rest = follow own t tape rest ↔ AllOk surface t rest := by
  induction rest generalizing t tape with
  | nil => exact ⟨fun _ => trivial, fun _ => rfl⟩
  | cons piece rest ih =>
    obtain ⟨hstep, hbad⟩ := (compared_self hgood hlen).step surface piece
    by_cases hok : PieceOk surface t piece
    · have heq := shown_eq_own hgood hlen hok
      rw [follow, follow, heq, ih hstep.good hstep.length_own, AllOk]
      exact ⟨fun h => ⟨hok, h⟩, fun h => h.2⟩
    · refine ⟨fun heq => absurd heq ?_, fun h => absurd h.1 hok⟩
      exact follow_shown_ne_of_lags surface hstep (hbad (.inr hok)) rest

end Switchback
