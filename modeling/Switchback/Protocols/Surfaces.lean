import Switchback.Protocols.Transcode

/-!
# The two surfaces follow the pieces

Each encoder runs beside the client that reads its frames.
-/

namespace Switchback

open Lib

/-! ### Messages -/

/-- The encoder, and the client that reads its frames. -/
def messaging (p : AnthropicStreamEncoder × MessagesReader) (event : AiStreamEvent) :
    AnthropicStreamEncoder × MessagesReader :=
  ((p.1.encode event).2, (p.1.encode event).1.foldl MessagesReader.readFrame p.2)

theorem foldl_messaging (p : AnthropicStreamEncoder × MessagesReader)
    (events : List AiStreamEvent) :
    (events.foldl messaging p).2 =
      (p.1.encodeStream events).foldl MessagesReader.readFrame p.2 := by
  induction events generalizing p with
  | nil => rfl
  | cons event events ih =>
    rw [List.foldl_cons, ih, AnthropicStreamEncoder.encodeStream, List.foldl_append]
    rfl

/-- The client has the encoder's open block open: a text block, of no call, or the block of the
last call. -/
def OpenOk (t : Track) (map : OrdMap ℕ ℕ) (next : ℕ) :
    Option OpenBlock → List (ℕ × BlockKind) → Prop
  | none, blocks => blocks = [] ∧ t.seen = []
  | some (.text i), blocks =>
      blocks = [(i, .text)] ∧ t.textSince = true ∧ i < next ∧ ∀ k, map.get k ≠ some i
  | some (.tool i), blocks =>
      ∃ k, t.cur = some k ∧ t.textSince = false ∧ map.get k = some i ∧
        blocks = [(i, .tool (t.seen.idxOf k))]
  | some (.reasoning _), _ => False

/-- The blocks of the calls: each has one, they differ, and the next index is free. -/
structure Blocks (t : Track) (map : OrdMap ℕ ℕ) (next : ℕ) : Prop where
  total : ∀ k ∈ t.seen, (map.get k).isSome
  bounded : ∀ k i, map.get k = some i → i < next
  inj : ∀ k l i, map.get k = some i → map.get l = some i → k = l

structure Messaging (t : Track) (tape : Transcript)
    (p : AnthropicStreamEncoder × MessagesReader) : Prop where
  good : t.Good
  transcript : p.2.transcript = tape
  ended : p.1.ended = t.finished
  length : t.finished = false → tape.calls.length = t.seen.length
  blocks : t.finished = false → Blocks t p.1.toolIndexMap p.1.nextIndex
  isOpen : t.finished = false →
    OpenOk t p.1.toolIndexMap p.1.nextIndex p.1.openBlock p.2.openBlocks

theorem OpenOk.blocks_eq {t : Track} {map : OrdMap ℕ ℕ} {next : ℕ} {block : Option OpenBlock}
    {blocks : List (ℕ × BlockKind)} (h : OpenOk t map next block blocks) :
    (block = none ∧ blocks = []) ∨ ∃ b kind, block = some b ∧ blocks = [(b.index, kind)] := by
  cases block with
  | none => exact .inl ⟨rfl, h.1⟩
  | some b =>
    cases b with
    | text i => exact .inr ⟨_, _, rfl, h.1⟩
    | reasoning i => exact h.elim
    | tool i =>
      obtain ⟨k, -, -, -, hb⟩ := h
      exact .inr ⟨_, _, rfl, hb⟩

namespace AnthropicStreamEncoder

variable (e : AnthropicStreamEncoder) (r : MessagesReader)

theorem foldl_ensureStarted : e.ensureStarted.1.foldl MessagesReader.readFrame r = r := by
  unfold ensureStarted
  split
  · rfl
  · exact r.readFrame_messageStart e

theorem ensureStarted_fields :
    e.ensureStarted.2.toolIndexMap = e.toolIndexMap ∧ e.ensureStarted.2.nextIndex = e.nextIndex ∧
      e.ensureStarted.2.openBlock = e.openBlock ∧ e.ensureStarted.2.ended = e.ended := by
  unfold ensureStarted
  split
  · exact ⟨rfl, rfl, rfl, rfl⟩
  · exact ⟨rfl, rfl, rfl, rfl⟩

theorem closeBlock_snd : e.closeBlock.2 = { e with openBlock := none } := by
  unfold closeBlock
  cases e with
  | mk id model messageStarted ended openBlock nextIndex toolIndexMap usage =>
    cases openBlock with
    | none => rfl
    | some b => rfl

theorem foldl_closeBlock {t : Track} {map : OrdMap ℕ ℕ} {next : ℕ}
    (h : OpenOk t map next e.openBlock r.openBlocks) :
    e.closeBlock.1.foldl MessagesReader.readFrame r = { r with openBlocks := [] } := by
  unfold closeBlock
  rcases h.blocks_eq with ⟨hb, hr⟩ | ⟨b, kind, hb, hr⟩
  · rw [hb]
    show r = _
    rw [← hr]
  · rw [hb]
    show r.readFrame (contentBlockStop b.index) = _
    rw [MessagesReader.readFrame_contentBlockStop, hr]
    simp

theorem foldl_startBlock {t : Track} {map : OrdMap ℕ ℕ} {next : ℕ}
    (h : OpenOk t map next e.openBlock r.openBlocks) (kind : ℕ → OpenBlock) (block : Json) :
    (e.startBlock kind block).1.foldl MessagesReader.readFrame r =
      MessagesReader.blockStart { r with openBlocks := [] } e.nextIndex block := by
  unfold startBlock
  dsimp only
  rw [List.foldl_append, e.foldl_closeBlock r h, closeBlock_snd]
  exact MessagesReader.readFrame_contentBlockStart _ _ _

theorem startBlock_snd (kind : ℕ → OpenBlock) (block : Json) :
    (e.startBlock kind block).2 =
      { e with openBlock := some (kind e.nextIndex), nextIndex := e.nextIndex + 1 } := by
  unfold startBlock
  dsimp only
  rw [closeBlock_snd]

theorem encodeText_of_text {i : ℕ} (h : e.openBlock = some (.text i)) (text : String) :
    e.encodeText text = ([contentBlockDelta i (textDelta text)], e) := by
  unfold encodeText
  simp only [h, List.nil_append]

theorem encodeText_of_not_text (h : ¬ ∃ i, e.openBlock = some (.text i)) (text : String) :
    e.encodeText text =
      ((e.startBlock .text textBlock).1 ++ [contentBlockDelta e.nextIndex (textDelta text)],
        (e.startBlock .text textBlock).2) := by
  unfold encodeText
  cases hb : e.openBlock with
  | none => simp only [startBlock_snd]
  | some b =>
    cases b with
    | text i => exact absurd ⟨i, hb⟩ h
    | reasoning i => simp only [startBlock_snd]
    | tool i => simp only [startBlock_snd]

end AnthropicStreamEncoder

theorem messaging_started (e : AnthropicStreamEncoder) (r : MessagesReader)
    (f : AnthropicStreamEncoder → List SseFrame × AnthropicStreamEncoder) :
    ((e.started f).2, (e.started f).1.foldl MessagesReader.readFrame r) =
      ((f e.ensureStarted.2).2,
        (f e.ensureStarted.2).1.foldl MessagesReader.readFrame r) := by
  unfold AnthropicStreamEncoder.started
  dsimp only
  rw [List.foldl_append, e.foldl_ensureStarted]

/-- After the end the encoder is silent. -/
theorem messaging_of_ended {p : AnthropicStreamEncoder × MessagesReader} (h : p.1.ended = true)
    (event : AiStreamEvent) : messaging p event = p := by
  unfold messaging AnthropicStreamEncoder.encode
  rw [if_pos h]
  rfl

theorem foldl_messaging_of_ended {p : AnthropicStreamEncoder × MessagesReader}
    (h : p.1.ended = true) (events : List AiStreamEvent) : events.foldl messaging p = p := by
  induction events with
  | nil => rfl
  | cons event events ih =>
    rw [List.foldl_cons, messaging_of_ended h, ih]

namespace Messaging

variable {t : Track} {tape : Transcript} {p : AnthropicStreamEncoder × MessagesReader}

/-- After the end only the track moves. -/
theorem of_finished (h : Messaging t tape p) (hfin : t.finished = true) (piece : Piece) :
    Messaging (t.step piece) tape p := by
  have hstep : (t.step piece).finished = true := by
    cases piece with
    | text text => exact (t.run_text_finished text).trans hfin
    | fragment f => exact (t.register_finished f.index).trans hfin
    | finish => rfl
  have hlive : ¬ (t.step piece).finished = false := by rw [hstep]; simp
  exact ⟨h.good.step piece, h.transcript, by rw [h.ended, hfin, hstep],
    fun hf => absurd hf hlive, fun hf => absurd hf hlive, fun hf => absurd hf hlive⟩

theorem congr_encoder (h : Messaging t tape p) {e : AnthropicStreamEncoder}
    (hmap : e.toolIndexMap = p.1.toolIndexMap) (hnext : e.nextIndex = p.1.nextIndex)
    (hopen : e.openBlock = p.1.openBlock) (hended : e.ended = p.1.ended) :
    Messaging t tape (e, p.2) :=
  ⟨h.good, h.transcript, hended.trans h.ended, h.length,
    fun hf => by rw [hmap, hnext]; exact h.blocks hf,
    fun hf => by rw [hmap, hnext, hopen]; exact h.isOpen hf⟩

theorem ensureStarted (h : Messaging t tape p) : Messaging t tape (p.1.ensureStarted.2, p.2) := by
  obtain ⟨hmap, hnext, hopen, hended⟩ := p.1.ensureStarted_fields
  exact h.congr_encoder hmap hnext hopen hended

/-- An event that runs `f` on the started message. -/
theorem messaging_eq_started (h : Messaging t tape p) (hlive : t.finished = false)
    {event : AiStreamEvent}
    {f : AnthropicStreamEncoder → List SseFrame × AnthropicStreamEncoder}
    (hf : p.1.ended = false → p.1.encode event = p.1.started f) :
    messaging p event = ((f p.1.ensureStarted.2).2,
      (f p.1.ensureStarted.2).1.foldl MessagesReader.readFrame p.2) := by
  rw [messaging, hf (h.ended.trans hlive)]
  exact messaging_started p.1 p.2 f

/-- Text, at the started message. -/
theorem encodeText (h : Messaging t tape p) (hlive : t.finished = false) {text : String}
    (hne : text ≠ "") :
    Messaging (t.step (.text text)) { tape with text := tape.text ++ text }
      ((p.1.encodeText text).2,
        (p.1.encodeText text).1.foldl MessagesReader.readFrame p.2) := by
  have hstep : t.step (.text text) = { t with textSince := true } := if_neg hne
  have hgood := h.good.step (.text text)
  rw [hstep] at hgood ⊢
  -- the client with a text block open appends the text
  have hdelta (r : MessagesReader) (i : ℕ) (hr : r.openBlocks = [(i, .text)]) :
      r.readFrame (AnthropicStreamEncoder.contentBlockDelta i
        (AnthropicStreamEncoder.textDelta text)) =
      { r with transcript := { r.transcript with text := r.transcript.text ++ text } } := by
    rw [MessagesReader.readFrame_contentBlockDelta]
    exact r.blockDelta_text i text (by rw [hr]; simp)
  have hisOpen := h.isOpen hlive
  have hblocks := h.blocks hlive
  by_cases htext : ∃ i, p.1.openBlock = some (.text i)
  · obtain ⟨i, hi⟩ := htext
    rw [hi] at hisOpen
    obtain ⟨hr, hsince, hlt, hfree⟩ := hisOpen
    rw [p.1.encodeText_of_text hi, List.foldl_cons, List.foldl_nil, hdelta p.2 i hr]
    refine ⟨hgood, by dsimp only; rw [h.transcript], h.ended, h.length,
      fun _ => ⟨hblocks.total, hblocks.bounded, hblocks.inj⟩, fun _ => ?_⟩
    rw [hi]
    exact ⟨hr, rfl, hlt, hfree⟩
  · rw [p.1.encodeText_of_not_text htext, List.foldl_append, p.1.foldl_startBlock p.2 hisOpen,
      MessagesReader.blockStart_text, List.foldl_cons, List.foldl_nil, hdelta _ p.1.nextIndex rfl,
      AnthropicStreamEncoder.startBlock_snd]
    refine ⟨hgood, by dsimp only; rw [h.transcript], h.ended, h.length,
      fun _ => ⟨hblocks.total, ?_, hblocks.inj⟩, fun _ => ⟨rfl, rfl, Nat.lt_succ_self _, ?_⟩⟩
    · exact fun k i hi => Nat.lt_succ_of_lt (hblocks.bounded k i hi)
    · exact fun k hk => absurd (hblocks.bounded k _ hk) (Nat.lt_irrefl _)

/-- A new call gets a block of its own, and the block is open. -/
theorem announce (h : Messaging t tape p) (hlive : t.finished = false) (f : ToolCallFragment) :
    Messaging (t.register f.index) (announce t tape f)
      ((if f.index ∈ t.seen then []
        else [AiStreamEvent.toolCallStart
          { index := f.index, id := f.id, name := f.name }]).foldl messaging p) := by
  have hgood := h.good.register f.index
  have hlen : (Switchback.announce t tape f).calls.length =
      (t.register f.index).seen.length := by
    have := announce_length t tape f
    have := h.length hlive
    omega
  unfold Switchback.announce Track.register at *
  by_cases hnew : f.index ∈ t.seen
  · simp only [if_pos hnew]
    exact h
  simp only [if_neg hnew] at hgood hlen ⊢
  have hs := h.ensureStarted
  have hisOpen := hs.isOpen hlive
  have hblocks := hs.blocks hlive
  rw [List.foldl_cons, List.foldl_nil, h.messaging_eq_started hlive fun he => by
    rw [AnthropicStreamEncoder.encode, if_neg (by simp [he])]]
  dsimp only at hisOpen hblocks ⊢
  generalize p.1.ensureStarted.2 = e at hisOpen hblocks hs ⊢
  rw [e.foldl_startBlock p.2 hisOpen, AnthropicStreamEncoder.startBlock_snd,
    MessagesReader.blockStart_toolUse]
  have htape := h.transcript
  have hget (k : ℕ) : (e.toolIndexMap.insert f.index e.nextIndex).get k =
      if k = f.index then some e.nextIndex else e.toolIndexMap.get k := OrdMap.get_insert ..
  refine ⟨hgood, by dsimp only; rw [htape], hs.ended, fun _ => hlen, fun _ => ⟨?_, ?_, ?_⟩,
    fun _ => ⟨f.index, rfl, rfl, by rw [hget, if_pos rfl], ?_⟩⟩
  · intro k hk
    dsimp only
    rw [hget]
    split
    · rfl
    · next hne =>
      rcases List.mem_append.mp hk with hk | hk
      · exact hblocks.total k hk
      · exact absurd (List.mem_singleton.mp hk) hne
  · intro k i hi
    dsimp only at hi ⊢
    rw [hget] at hi
    split at hi
    · rw [← Option.some.inj hi]
      exact Nat.lt_succ_self _
    · exact Nat.lt_succ_of_lt (hblocks.bounded k i hi)
  · -- the next index belongs to no earlier call
    have hfree (k : ℕ) : e.toolIndexMap.get k ≠ some e.nextIndex := fun hk =>
      absurd (hblocks.bounded k _ hk) (Nat.lt_irrefl _)
    intro k l i hk hl
    dsimp only at hk hl
    rw [hget] at hk hl
    split at hk
    · next hkf =>
      split at hl
      · next hlf => rw [hkf, hlf]
      · exact absurd (hl.trans hk.symm) (hfree l)
    · split at hl
      · exact absurd (hk.trans hl.symm) (hfree k)
      · exact hblocks.inj k l i hk hl
  · dsimp only
    rw [List.nil_append, h.transcript, h.length hlive, List.idxOf_append_of_notMem hnew,
      List.idxOf_cons_self, Nat.add_zero]

/-- A fragment reaches the client's call while its block is open, and is lost otherwise. -/
theorem argsDelta (h : Messaging t tape p) (hlive : t.finished = false) {index : ℕ}
    (hmem : index ∈ t.seen) (json : String) :
    Messaging t (place .messages t tape index json)
      (messaging p (.toolCallArgsDelta index json)) := by
  have hs := h.ensureStarted
  have hisOpen := hs.isOpen hlive
  have hblocks := hs.blocks hlive
  rw [h.messaging_eq_started hlive fun he => by
    rw [AnthropicStreamEncoder.encode, if_neg (by simp [he])]]
  dsimp only at hisOpen hblocks ⊢
  generalize p.1.ensureStarted.2 = e at hisOpen hblocks hs ⊢
  obtain ⟨i, hi⟩ := Option.isSome_iff_exists.mp (hblocks.total index hmem)
  rw [hi, Option.getD_some, List.foldl_cons, List.foldl_nil,
    MessagesReader.readFrame_contentBlockDelta]
  by_cases hok : t.cur = some index ∧ t.textSince = false
  · have hplace : place .messages t tape index json =
        appendAt tape (t.seen.idxOf index) json := if_pos hok
    have hfind : (p.2.openBlocks.find? fun b => b.1 = i).map Prod.snd =
        some (.tool (t.seen.idxOf index)) := by
      cases hb : e.openBlock with
      | none =>
        rw [hb] at hisOpen
        rw [hisOpen.2] at hmem
        exact absurd hmem (by simp)
      | some b =>
        rw [hb] at hisOpen
        cases b with
        | text j => exact absurd (hisOpen.2.1.symm.trans hok.2) (by simp)
        | reasoning j => exact hisOpen.elim
        | tool j =>
          obtain ⟨k, hk, -, hj, hr⟩ := hisOpen
          have hkk : k = index := Option.some.inj (hk.symm.trans hok.1)
          rw [hkk] at hj hr
          have hij : j = i := Option.some.inj (hj.symm.trans hi)
          rw [hr, hij]
          simp
    rw [p.2.blockDelta_inputJson i json hfind, hplace]
    refine ⟨h.good, by dsimp only; rw [h.transcript], hs.ended, fun hf => ?_, hs.blocks, hs.isOpen⟩
    rw [appendAt_length]
    exact h.length hf
  · have hplace : place .messages t tape index json = tape := if_neg hok
    have hlost : ∀ position, (p.2.openBlocks.find? fun b => b.1 = i).map Prod.snd ≠
        some (.tool position) := by
      intro position hfind
      cases hb : e.openBlock with
      | none =>
        rw [hb] at hisOpen
        rw [hisOpen.1] at hfind
        exact absurd hfind (by simp)
      | some b =>
        rw [hb] at hisOpen
        cases b with
        | text j =>
          rw [hisOpen.1] at hfind
          by_cases hji : j = i
          · exact absurd hfind (by simp [hji])
          · exact absurd hfind (by simp [hji])
        | reasoning j => exact hisOpen.elim
        | tool j =>
          obtain ⟨k, hk, hsince, hj, hr⟩ := hisOpen
          have hne : j ≠ i := by
            rintro rfl
            exact hok ⟨by rw [hk, hblocks.inj k index j hj hi], hsince⟩
          rw [hr] at hfind
          exact absurd hfind (by simp [hne])
    rw [p.2.blockDelta_inputJson_lost i json hlost, hplace]
    exact hs

/-- The end closes what is open. -/
theorem messageEnd (h : Messaging t tape p) (hlive : t.finished = false)
    (reason : FinishReason) :
    Messaging (t.step .finish) tape (messaging p (.messageEnd reason)) := by
  have hs := h.ensureStarted
  have hisOpen := hs.isOpen hlive
  rw [h.messaging_eq_started hlive fun he => by
    rw [AnthropicStreamEncoder.encode, if_neg (by simp [he])]]
  dsimp only at hisOpen ⊢
  generalize p.1.ensureStarted.2 = e at hisOpen hs ⊢
  rw [List.foldl_append, e.foldl_closeBlock p.2 hisOpen]
  refine ⟨h.good.step .finish, h.transcript, rfl, fun hf => ?_, fun hf => ?_, fun hf => ?_⟩
  · exact absurd hf (by simp [Track.step])
  · exact absurd hf (by simp [Track.step])
  · exact absurd hf (by simp [Track.step])

end Messaging

/-- **The client of Messages follows the pieces as a Messages client shows them.** -/
theorem messages_follows : Follows (shown .messages) messaging Messaging where
  text_empty t tape := by
    rw [shown, String.append_empty]
    split <;> rfl
  finish_tape t tape := by
    rw [shown]
    split <;> rfl
  start {t tape p} id model h := by
    cases hfin : t.finished with
    | true =>
      rw [messaging_of_ended (h.ended.trans hfin)]
      exact h
    | false =>
      have hlive : ¬ p.1.ended = true := by simp [h.ended, hfin]
      unfold messaging AnthropicStreamEncoder.encode
      rw [if_neg hlive]
      dsimp only
      rw [AnthropicStreamEncoder.foldl_ensureStarted]
      have hnamed : Messaging t tape ({ p.1 with
          id := if p.1.id = "" then id else p.1.id
          model := if p.1.model = "" then model else p.1.model }, p.2) :=
        h.congr_encoder rfl rfl rfl rfl
      exact hnamed.ensureStarted
  usage {t tape p} usage h := by
    cases hfin : t.finished with
    | true =>
      rw [messaging_of_ended (h.ended.trans hfin)]
      exact h
    | false =>
      have hlive : ¬ p.1.ended = true := by simp [h.ended, hfin]
      unfold messaging AnthropicStreamEncoder.encode
      rw [if_neg hlive]
      exact h.congr_encoder rfl rfl rfl rfl
  text {t tape p} text hne h := by
    cases hfin : t.finished with
    | true =>
      rw [messaging_of_ended (h.ended.trans hfin), shown_of_finished .messages hfin]
      exact h.of_finished hfin _
    | false =>
      have hshown : shown .messages t tape (.text text) =
          { tape with text := tape.text ++ text } := if_neg (by simp [hfin])
      rw [hshown, h.messaging_eq_started hfin fun he => by
        rw [AnthropicStreamEncoder.encode, if_neg (by simp [he])]
        exact if_neg hne]
      exact h.ensureStarted.encodeText hfin hne
  fragment {t tape p} f h := by
    cases hfin : t.finished with
    | true =>
      rw [foldl_messaging_of_ended (h.ended.trans hfin), shown_of_finished .messages hfin]
      exact h.of_finished hfin _
    | false =>
      have hannounce := h.announce hfin f
      have hlive := (t.register_finished f.index).trans hfin
      rw [OpenAiStreamDecoder.fragmentEvents, shown, if_neg (by simp [hfin]), List.foldl_append]
      cases f.arguments with
      | none => exact hannounce
      | some json => exact hannounce.argsDelta hlive (t.mem_register f.index) json
  finish {t tape p} reason h := by
    have hshown : shown .messages t tape .finish = tape := by
      rw [shown]
      split <;> rfl
    rw [hshown]
    cases hfin : t.finished with
    | true =>
      rw [messaging_of_ended (h.ended.trans hfin)]
      exact h.of_finished hfin .finish
    | false => exact h.messageEnd hfin reason

/-! ### Responses -/

section Responses

variable (newId : String → ℕ → String)

/-- The encoder, and what the client read of the first completed response. -/
def responding (p : OpenAiResponsesStreamEncoder × Option Transcript) (event : AiStreamEvent) :
    OpenAiResponsesStreamEncoder × Option Transcript :=
  ((p.1.encode newId event).2, p.2.or ((p.1.encode newId event).1.findSome? readCompleted))

theorem foldl_responding (p : OpenAiResponsesStreamEncoder × Option Transcript)
    (events : List AiStreamEvent) :
    (events.foldl (responding newId) p).2 =
      p.2.or ((p.1.encodeStream newId events).findSome? readCompleted) := by
  induction events generalizing p with
  | nil => exact (Option.or_none).symm
  | cons event events ih =>
    rw [List.foldl_cons, ih, OpenAiResponsesStreamEncoder.encodeStream, List.findSome?_append,
      ← Option.or_assoc]
    rfl

/-- A call of the output, as the collector keeps it. -/
def OutputCall.collected (call : OutputCall) : CollectedCall where
  id := call.callId
  name := call.name
  args := call.args

/-- The encoder before the end: the last call is being assembled. -/
structure Assembling (t : Track) (tape : Transcript) (e : OpenAiResponsesStreamEncoder) :
    Prop where
  text : e.text = tape.text
  textOpen : e.textOpen = false → e.text = ""
  reasoningOpen : e.reasoningOpen = false
  reasoningItem : e.reasoningItem = none
  reasoning : tape.reasoning = ""
  calls : (e.toolCalls ++ e.curTool.toList).map OutputCall.collected = tape.calls
  cur : t.seen ≠ [] → e.curTool.isSome

structure Responding (t : Track) (tape : Transcript)
    (p : OpenAiResponsesStreamEncoder × Option Transcript) : Prop where
  done : t.finished = true → p.2 = some tape
  pending : t.finished = false → p.2 = none
  assembling : t.finished = false → Assembling t tape p.1

/-- A final object, whoever renders it. -/
def finalObject (id status model : String) (output : List Json) (usage : Usage) : Json :=
  Json.mkObj
    ([("id", .str id), ("object", .str "response"), ("status", .str status),
        ("model", .str model), ("output", .arr output), ("usage", responsesUsageJson usage)] ++
      (usage.energy.map fun energy => ("energy", energyUsageJson energy)).toList)

/-- What a final object shows of the usage. -/
def shownUsage (usage : Usage) : Json × Option Json :=
  (responsesUsageJson usage, usage.energy.map energyUsageJson)

theorem get_finalObject (id status model : String) (output : List Json) (usage : Usage)
    (k : String) :
    (finalObject id status model output usage).get k =
      if k = "id" then some (.str id)
      else if k = "object" then some (.str "response")
      else if k = "status" then some (.str status)
      else if k = "model" then some (.str model)
      else if k = "output" then some (.arr output)
      else if k = "usage" then some (shownUsage usage).1
      else if k = "energy" then (shownUsage usage).2
      else none := by
  unfold finalObject shownUsage
  cases usage.energy with
  | none =>
    rw [Json.get_mkObj (by simp)]
    simp [OrdMap.getList]
  | some energy =>
    rw [Json.get_mkObj (by simp)]
    simp [OrdMap.getList]

namespace OpenAiResponsesStreamEncoder

theorem readCompleted_frame {event : String} (h : event ≠ "response.completed")
    (fields : List (String × Json)) : readCompleted (frame event fields) = none :=
  if_neg h

theorem readCompleted_itemFrame {event : String} (h : event ≠ "response.completed")
    (outputIndex : ℕ) (item : Json) : readCompleted (itemFrame event outputIndex item) = none :=
  readCompleted_frame h _

theorem get_response_completed (e : OpenAiResponsesStreamEncoder) (output : List Json) :
    (e.completed output).data.get "response" =
      some (finalObject e.responseId e.status e.model output e.usage) :=
  Json.get_mkObj (by simp) "response"

theorem pointer_completed (e : OpenAiResponsesStreamEncoder) (output : List Json) :
    (e.completed output).data.pointer ["response", "output"] = some (.arr output) := by
  show ((some (e.completed output).data).bind (Json.get "response")).bind (Json.get "output") = _
  rw [Option.bind_some, get_response_completed, Option.bind_some, get_finalObject]
  rfl

theorem readCompleted_completed (e : OpenAiResponsesStreamEncoder) (output : List Json) :
    readCompleted (e.completed output) = some (output.foldl readOutputItem {}) := by
  unfold readCompleted
  rw [pointer_completed]
  exact if_pos rfl

theorem readOutputItem_messageItem (tr : Transcript) (id status text : String) :
    readOutputItem tr (messageItem id status [outputText text]) =
      { tr with text := tr.text ++ text } := by
  have htype : (messageItem id status [outputText text]).getStr "type" = some "message" := by
    unfold Json.getStr messageItem
    rw [Json.get_mkObj (by simp)]
    rfl
  have hcontent : (messageItem id status [outputText text]).getArray "content" =
      some [outputText text] := by
    unfold Json.getArray messageItem
    rw [Json.get_mkObj (by simp)]
    rfl
  have htext : (outputText text).getStr "text" = some text := by
    unfold Json.getStr outputText
    rw [Json.get_mkObj (by simp)]
    rfl
  unfold readOutputItem
  rw [htype, hcontent]
  simp [htext, String.join]

theorem readOutputItem_functionCallItem (tr : Transcript) (id : String) (call : OutputCall) :
    readOutputItem tr (functionCallItem id call) =
      { tr with calls := tr.calls ++ [call.collected] } := by
  have h (k v : String) (hk : OrdMap.getList k [("type", Json.str "function_call"),
      ("id", .str id), ("call_id", .str call.callId), ("name", .str call.name),
      ("arguments", .str call.args), ("status", .str "completed")] = some (.str v)) :
      (functionCallItem id call).getStr k = some v := by
    unfold Json.getStr functionCallItem
    rw [Json.get_mkObj (by simp), hk]
    rfl
  unfold readOutputItem
  rw [h "type" "function_call" rfl, h "call_id" call.callId rfl, h "name" call.name rfl,
    h "arguments" call.args rfl]
  rfl

variable (newId : String → ℕ → String)

theorem findSome?_toolItems (outputIndex drawn : ℕ) (calls : List OutputCall) :
    (toolItems newId outputIndex drawn calls).1.findSome? readCompleted = none := by
  induction calls generalizing outputIndex drawn with
  | nil => rfl
  | cons call calls ih =>
    rw [toolItems]
    dsimp only
    rw [List.findSome?_cons, readCompleted_itemFrame (by decide), List.findSome?_cons,
      readCompleted_itemFrame (by decide)]
    exact ih _ _

theorem foldl_toolItems (outputIndex drawn : ℕ) (calls : List OutputCall) (tr : Transcript) :
    (toolItems newId outputIndex drawn calls).2.foldl readOutputItem tr =
      { tr with calls := tr.calls ++ calls.map OutputCall.collected } := by
  induction calls generalizing outputIndex drawn tr with
  | nil => simp [toolItems]
  | cons call calls ih =>
    rw [toolItems]
    dsimp only
    rw [List.foldl_cons, readOutputItem_functionCallItem, ih]
    simp

theorem closeReasoning_of_closed {e : OpenAiResponsesStreamEncoder}
    (h : e.reasoningOpen = false) : e.closeReasoning = ([], e) := by
  unfold closeReasoning
  rw [h]
  rfl

theorem findSome?_closeText (e : OpenAiResponsesStreamEncoder) :
    e.closeText.1.findSome? readCompleted = none := by
  unfold closeText
  split
  · rfl
  · rfl

theorem foldl_closeText {e : OpenAiResponsesStreamEncoder} (h : e.textOpen = false → e.text = "")
    (tr : Transcript) :
    e.closeText.2.1.foldl readOutputItem tr = { tr with text := tr.text ++ e.text } := by
  unfold closeText
  by_cases ht : e.textOpen = true
  · rw [if_pos ht]
    exact readOutputItem_messageItem ..
  · rw [if_neg ht, h (by simpa using ht), String.append_empty]
    rfl

theorem closeText_fields (e : OpenAiResponsesStreamEncoder) :
    e.closeText.2.2.toolCalls = e.toolCalls ∧ e.closeText.2.2.curTool = e.curTool ∧
      e.closeText.2.2.reasoningItem = e.reasoningItem := by
  unfold closeText
  split
  · exact ⟨rfl, rfl, rfl⟩
  · exact ⟨rfl, rfl, rfl⟩

end OpenAiResponsesStreamEncoder

open OpenAiResponsesStreamEncoder

/-- **The completed response is the transcript.** -/
theorem Assembling.finish {t : Track} {tape : Transcript} {e : OpenAiResponsesStreamEncoder}
    (h : Assembling t tape e) : (finish newId e).1.findSome? readCompleted = some tape := by
  unfold OpenAiResponsesStreamEncoder.finish
  rw [closeReasoning_of_closed h.reasoningOpen]
  dsimp only
  obtain ⟨htools, hcur, hitem⟩ := e.closeText_fields
  rw [List.findSome?_append, List.findSome?_append, List.nil_append, findSome?_closeText,
    findSome?_toolItems, Option.none_or, Option.none_or, List.findSome?_cons,
    readCompleted_completed]
  dsimp only [takeTool]
  rw [hitem, h.reasoningItem, htools, hcur, Option.toList_none, List.nil_append,
    List.foldl_append, foldl_closeText h.textOpen, foldl_toolItems, h.calls, h.text]
  have hreasoning := h.reasoning
  cases tape with
  | mk text reasoning calls =>
    dsimp only at hreasoning ⊢
    rw [hreasoning, List.nil_append, String.empty_append]

namespace Responding

variable {newId} {t : Track} {tape : Transcript}
  {p : OpenAiResponsesStreamEncoder × Option Transcript}

/-- After the end the client keeps what it read. -/
theorem of_finished (h : Responding t tape p) {t' : Track} (hfin : t.finished = true)
    (hfin' : t'.finished = true) (events : List AiStreamEvent) :
    Responding t' tape (events.foldl (responding newId) p) := by
  have hdone : (events.foldl (responding newId) p).2 = some tape := by
    rw [foldl_responding, h.done hfin, Option.some_or]
  have hlive : ¬ t'.finished = false := by rw [hfin']; simp
  exact ⟨fun _ => hdone, fun hf => absurd hf hlive, fun hf => absurd hf hlive⟩

/-- Before the end an event without a completed response. -/
theorem of_live (h : Responding t tape p) (hlive : t.finished = false) {t' : Track}
    {tape' : Transcript} (hlive' : t'.finished = false) {event : AiStreamEvent}
    (hframes : (p.1.encode newId event).1.findSome? readCompleted = none)
    (hstep : Assembling t' tape' (p.1.encode newId event).2) :
    Responding t' tape' (responding newId p event) := by
  have hnone : (responding newId p event).2 = none := by
    rw [responding, hframes, h.pending hlive]
    rfl
  refine ⟨fun hf => ?_, fun _ => hnone, fun _ => hstep⟩
  rw [hlive'] at hf
  exact absurd hf (by simp)

theorem announce (h : Responding t tape p) (hlive : t.finished = false) (f : ToolCallFragment) :
    Responding (t.register f.index) (announce t tape f)
      ((if f.index ∈ t.seen then []
        else [AiStreamEvent.toolCallStart
          { index := f.index, id := f.id, name := f.name }]).foldl (responding newId) p) := by
  unfold Switchback.announce Track.register
  by_cases hnew : f.index ∈ t.seen
  · simp only [if_pos hnew]
    exact h
  · simp only [if_neg hnew]
    have ha := h.assembling hlive
    rw [List.foldl_cons, List.foldl_nil]
    refine h.of_live hlive ?_ ?_ ?_
    · exact hlive
    · rfl
    refine ⟨ha.text, ha.textOpen, ha.reasoningOpen, ha.reasoningItem, ha.reasoning, ?_,
      fun _ => rfl⟩
    show ((p.1.toolCalls ++ p.1.curTool.toList) ++ [_]).map OutputCall.collected = _
    rw [List.map_append, ha.calls]
    rfl

theorem argsDelta (h : Responding t tape p) (hlive : t.finished = false) {index : ℕ}
    (hmem : index ∈ t.seen) (json : String) :
    Responding t (place .responses t tape index json)
      (responding newId p (.toolCallArgsDelta index json)) := by
  have ha := h.assembling hlive
  obtain ⟨call, hcall⟩ := Option.isSome_iff_exists.mp (ha.cur (List.ne_nil_of_mem hmem))
  refine h.of_live hlive hlive rfl ⟨ha.text, ha.textOpen, ha.reasoningOpen, ha.reasoningItem,
    ha.reasoning, ?_, fun hs => ?_⟩
  · have hcalls := ha.calls
    rw [hcall, Option.toList_some, List.map_append, List.map_singleton] at hcalls
    show (p.1.toolCalls ++ (p.1.curTool.map _).toList).map OutputCall.collected =
      tape.calls.modify (tape.calls.length - 1) (CollectedCall.append json)
    rw [hcall, ← hcalls, List.length_append, List.length_singleton, Nat.add_sub_cancel,
      Slots.modify_last, Option.map_some, Option.toList_some, List.map_append, List.map_singleton]
    rfl
  · show (p.1.curTool.map _).isSome = true
    rw [Option.isSome_map]
    exact ha.cur hs

end Responding

/-- **The client of Responses follows the pieces as a Responses client shows them.** -/
theorem responses_follows : Follows (shown .responses) (responding newId) Responding where
  text_empty t tape := by
    rw [shown, String.append_empty]
    split <;> rfl
  finish_tape t tape := by
    rw [shown]
    split <;> rfl
  start {t tape p} id model h := by
    cases hfin : t.finished with
    | true => exact h.of_finished hfin hfin [.messageStart id model]
    | false => exact h.of_live hfin hfin rfl (h.assembling hfin)
  usage {t tape p} usage h := by
    cases hfin : t.finished with
    | true => exact h.of_finished hfin hfin [.usageDelta usage]
    | false =>
      have ha := h.assembling hfin
      exact h.of_live hfin hfin rfl ⟨ha.text, ha.textOpen, ha.reasoningOpen, ha.reasoningItem,
        ha.reasoning, ha.calls, ha.cur⟩
  text {t tape p} text hne h := by
    have hstep := t.run_text_finished text
    cases hfin : t.finished with
    | true =>
      rw [shown_of_finished .responses hfin]
      exact h.of_finished hfin (hstep.trans hfin) [.textDelta text]
    | false =>
      have ha := h.assembling hfin
      have hshown : shown .responses t tape (.text text) =
          { tape with text := tape.text ++ text } := if_neg (by simp [hfin])
      have henc : p.1.encode newId (.textDelta text) =
          (p.1.openText.1 ++ [frame "response.output_text.delta"
            [("item_id", .str p.1.openText.2.itemId),
              ("output_index", Json.ofNat p.1.openText.2.outputIndex),
              ("content_index", Json.ofNat 0), ("delta", .str text)]],
            { p.1.openText.2 with text := p.1.openText.2.text ++ text }) := by
        unfold OpenAiResponsesStreamEncoder.encode
        dsimp only
        rw [closeReasoning_of_closed ha.reasoningOpen]
        rfl
      have hopen : p.1.openText.2 = { p.1 with textOpen := true } := by
        unfold openText
        split
        · next ht => rw [← ht]
        · rfl
      rw [hshown]
      refine h.of_live hfin (hstep.trans hfin) ?_ ?_
      · rw [henc]
        unfold openText
        split <;> rfl
      · rw [henc, hopen]
        refine ⟨?_, fun ht => absurd ht (by simp), ha.reasoningOpen, ha.reasoningItem,
          ha.reasoning, ha.calls, fun hs => ha.cur ?_⟩
        · dsimp only
          rw [ha.text]
        · rwa [t.run_text_seen text] at hs
  fragment {t tape p} f h := by
    cases hfin : t.finished with
    | true =>
      rw [shown_of_finished .responses hfin]
      exact h.of_finished hfin ((t.register_finished f.index).trans hfin) _
    | false =>
      have hlive := (t.register_finished f.index).trans hfin
      rw [OpenAiStreamDecoder.fragmentEvents, shown, if_neg (by simp [hfin]), List.foldl_append]
      cases f.arguments with
      | none => exact h.announce hfin f
      | some json => exact (h.announce hfin f).argsDelta hlive (t.mem_register f.index) json
  finish {t tape p} reason h := by
    have hshown : shown .responses t tape .finish = tape := by
      rw [shown]
      split <;> rfl
    rw [hshown]
    cases hfin : t.finished with
    | true => exact h.of_finished hfin rfl [.messageEnd reason]
    | false =>
      have ha := h.assembling hfin
      have hstatus : Assembling t tape { p.1 with status := finishStr reason } :=
        ⟨ha.text, ha.textOpen, ha.reasoningOpen, ha.reasoningItem, ha.reasoning, ha.calls, ha.cur⟩
      have hdone : (responding newId p (.messageEnd reason)).2 = some tape := by
        rw [responding, h.pending hfin, Option.none_or]
        exact hstatus.finish newId
      have hended : ¬ (t.step .finish).finished = false := by simp [Track.step]
      exact ⟨fun _ => hdone, fun hf => absurd hf hended, fun hf => absurd hf hended⟩

end Responses

/-! ### A client reads what the collector collects -/

/-- The events of a sequence of chunks and of the end of the stream. -/
def streamEvents (chunks : List Json) : List AiStreamEvent :=
  ({} : OpenAiStreamDecoder).decodeStream chunks

theorem track_good : ({} : Track).Good := ⟨List.nodup_nil, rfl⟩

theorem collected_eq (chunks : List Json) :
    ((streamEvents chunks).foldl gather {}).transcript (startOrder (streamEvents chunks)) =
        follow own {} {} (chunks.flatMap pieces) ∧
      (startOrder (streamEvents chunks)).Perm
        ((streamEvents chunks).foldl gather {}).toolUses.keys := by
  have hinit : Collected {} {} ({}, []) := ⟨track_good, rfl, rfl, rfl, rfl, fun _ _ => rfl⟩
  obtain ⟨t', h, -⟩ := collected_follows.run hinit
    (show ({} : Track).seen = ({} : OpenAiStreamDecoder).seenToolCalls from rfl) rfl chunks
  rw [foldl_collecting] at h
  exact ⟨h.transcript_eq, h.order_perm⟩

theorem readMessages_eq (id model : String) (chunks : List Json) :
    readMessages (({ id := id, model := model } : AnthropicStreamEncoder).encodeStream
        (streamEvents chunks)) = follow (shown .messages) {} {} (chunks.flatMap pieces) := by
  have hinit : Messaging {} {} ({ id := id, model := model }, {}) :=
    ⟨track_good, rfl, rfl, fun _ => rfl, fun _ => ⟨by simp, by simp, by simp⟩,
      fun _ => ⟨rfl, rfl⟩⟩
  obtain ⟨t', h, -⟩ := messages_follows.run hinit
    (show ({} : Track).seen = ({} : OpenAiStreamDecoder).seenToolCalls from rfl) rfl chunks
  rw [← h.transcript, foldl_messaging]
  rfl

theorem readResponses_eq (newId : String → ℕ → String) (responseId model : String)
    (chunks : List Json) :
    readResponses ((OpenAiResponsesStreamEncoder.new newId responseId model).encodeStream newId
        (streamEvents chunks)) = follow (shown .responses) {} {} (chunks.flatMap pieces) := by
  have hinit : Responding {} {} (OpenAiResponsesStreamEncoder.new newId responseId model, none) :=
    ⟨fun hf => absurd hf (by simp), fun _ => rfl,
      fun _ => ⟨rfl, fun _ => rfl, rfl, rfl, rfl, rfl, fun hs => absurd rfl hs⟩⟩
  obtain ⟨t', h, hfin⟩ := (responses_follows newId).run hinit
    (show ({} : Track).seen = ({} : OpenAiStreamDecoder).seenToolCalls from rfl) rfl chunks
  unfold readResponses
  cases chunks with
  | nil => rfl
  | cons chunk chunks =>
    have hdone := h.done (hfin (.inr (by simp)))
    rw [foldl_responding, Option.none_or] at hdone
    rw [streamEvents, hdone, Option.getD_some]

/-- **When a client reads what the collector collects**: the calls are matched by the order they
started in, which lists the collected calls, each once. -/
theorem transcode_same_iff (newId : String → ℕ → String) (id model : String)
    (chunks : List Json) :
    ∃ st, collectLoop none {} ((streamEvents chunks).map .ok) = .ok st ∧
      (startOrder (streamEvents chunks)).Perm st.toolUses.keys ∧
      (readMessages (({ id := id, model := model } : AnthropicStreamEncoder).encodeStream
          (streamEvents chunks)) = st.transcript (startOrder (streamEvents chunks)) ↔
        AllOk .messages {} (chunks.flatMap pieces)) ∧
      (readResponses ((OpenAiResponsesStreamEncoder.new newId id model).encodeStream newId
          (streamEvents chunks)) = st.transcript (startOrder (streamEvents chunks)) ↔
        AllOk .responses {} (chunks.flatMap pieces)) := by
  have hloop := collectLoop_none {} (isError_decodeStream chunks)
  obtain ⟨hcollected, hperm⟩ := collected_eq chunks
  refine ⟨_, hloop, hperm, ?_, ?_⟩
  · show _ = ((streamEvents chunks).foldl gather {}).transcript _ ↔ _
    rw [readMessages_eq, hcollected]
    exact follow_shown_eq_iff .messages track_good rfl _
  · show _ = ((streamEvents chunks).foldl gather {}).transcript _ ↔ _
    rw [readResponses_eq, hcollected]
    exact follow_shown_eq_iff .responses track_good rfl _

/-- A chunk with tool-call fragments. -/
def sampleChunk (toolCalls : List Json) (finishReason : Json) : Json :=
  Json.mkObj [("choices", .arr [Json.mkObj
    [("delta", Json.mkObj [("tool_calls", .arr toolCalls)]), ("finish_reason", finishReason)]])]

def sampleStart (index : ℕ) (id name : String) : Json :=
  Json.mkObj [("index", Json.ofNat index), ("id", .str id),
    ("function", Json.mkObj [("name", .str name), ("arguments", .str "")])]

def sampleArguments (index : ℕ) (arguments : String) : Json :=
  Json.mkObj [("index", Json.ofNat index),
    ("function", Json.mkObj [("arguments", .str arguments)])]

/-- Two parallel calls whose fragments interleave. -/
def interleavedChunks : List Json :=
  [sampleChunk [sampleStart 0 "call_a" "add", sampleStart 1 "call_b" "sub"] .null,
    sampleChunk [sampleArguments 0 "[1]"] .null,
    sampleChunk [sampleArguments 1 "[2]"] (.str "tool_calls")]

/-- What the collector collects of them. -/
def interleavedCollected : Transcript :=
  { calls := [⟨"call_a", "add", "[1]"⟩, ⟨"call_b", "sub", "[2]"⟩] }

/-- The first call's fragment is lost on the one surface and goes to the second call on the
other. -/
theorem interleaved_calls_differ :
    (collectLoop none {} ((streamEvents interleavedChunks).map .ok)).toOption.map
        (fun st => st.transcript (startOrder (streamEvents interleavedChunks))) =
      some interleavedCollected ∧
    readMessages (({ id := "", model := "m" } : AnthropicStreamEncoder).encodeStream
        (streamEvents interleavedChunks)) =
      { calls := [⟨"call_a", "add", ""⟩, ⟨"call_b", "sub", "[2]"⟩] } ∧
    readMessages (({ id := "", model := "m" } : AnthropicStreamEncoder).encodeStream
        (streamEvents interleavedChunks)) ≠ interleavedCollected ∧
    readResponses ((OpenAiResponsesStreamEncoder.new (fun kind _ => kind) "" "m").encodeStream
        (fun kind _ => kind) (streamEvents interleavedChunks)) =
      { calls := [⟨"call_a", "add", ""⟩, ⟨"call_b", "sub", "[1][2]"⟩] } ∧
    readResponses ((OpenAiResponsesStreamEncoder.new (fun kind _ => kind) "" "m").encodeStream
        (fun kind _ => kind) (streamEvents interleavedChunks)) ≠ interleavedCollected := by
  decide +kernel

end Switchback
