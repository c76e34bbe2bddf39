import Switchback.Lib.Acceptor
import Switchback.Protocols.Reassembly

/-!
# The grammar of a Messages stream

A stream is one `message_start`, then content blocks numbered from zero, one at a time, each with
deltas of its kind between its start and its stop, and at last one `message_delta` and one
`message_stop`.
-/

namespace Switchback

namespace MessagesGrammar

open Lib

/-! ### The grammar -/

inductive Kind where
  | text
  | thinking
  | toolUse
  deriving DecidableEq

inductive Token where
  | messageStart
  | blockStart (index : ℕ) (kind : Kind)
  | blockDelta (index : ℕ) (kind : Kind)
  | blockStop (index : ℕ)
  | messageDelta
  | messageStop

def blockKind (block : Json) : Option Kind :=
  match block.getStr "type" with
  | some "text" => some .text
  | some "thinking" => some .thinking
  | some "tool_use" => some .toolUse
  | _ => none

def deltaKind (delta : Json) : Option Kind :=
  match delta.getStr "type" with
  | some "text_delta" => some .text
  | some "thinking_delta" => some .thinking
  | some "input_json_delta" => some .toolUse
  | _ => none

/-- What a frame is in the grammar. -/
def token (frame : SseFrame) : Option Token :=
  match frame.event, frame.data.getU64 "index" with
  | "message_start", _ => some .messageStart
  | "content_block_start", some index =>
      ((frame.data.get "content_block").bind blockKind).map (.blockStart index)
  | "content_block_delta", some index =>
      ((frame.data.get "delta").bind deltaKind).map (.blockDelta index)
  | "content_block_stop", some index => some (.blockStop index)
  | "message_delta", _ => some .messageDelta
  | "message_stop", _ => some .messageStop
  | _, _ => none

/-- Before the start; with so many blocks begun, the last of them open or not; after the
`message_delta`; after the end. -/
inductive Phase where
  | fresh
  | body (blocks : ℕ) (opened : Option Kind)
  | closing
  | stopped

def Phase.next : Phase → Token → Option Phase
  | fresh, .messageStart => some (body 0 none)
  | body blocks none, .blockStart index kind =>
      if index = blocks then some (body (blocks + 1) (some kind)) else none
  | body blocks (some kind), .blockDelta index kind' =>
      if index + 1 = blocks ∧ kind' = kind then some (body blocks (some kind)) else none
  | body blocks (some _), .blockStop index =>
      if index + 1 = blocks then some (body blocks none) else none
  | body _ none, .messageDelta => some closing
  | closing, .messageStop => some stopped
  | _, _ => none

def Phase.frame (p : Phase) (frame : SseFrame) : Option Phase := (token frame).bind p.next

/-- The frames are the beginning of a stream. -/
def WellFormed (frames : List SseFrame) : Prop :=
  (Acceptor.read Phase.frame .fresh frames).isSome

section

variable (e : AnthropicStreamEncoder) (index : ℕ)

theorem token_contentBlockStart (block : Json) :
    token (AnthropicStreamEncoder.contentBlockStart index block) =
      (blockKind block).map (.blockStart index) := by
  have h : (Json.mkObj [("type", .str "content_block_start"), ("index", Json.ofNat index),
      ("content_block", block)]).getU64 "index" = some index :=
    MessagesReader.getU64_ofNat index (by simp) rfl
  unfold token AnthropicStreamEncoder.contentBlockStart
  dsimp only
  rw [h]
  show (((Json.mkObj [("type", .str "content_block_start"), ("index", Json.ofNat index),
    ("content_block", block)]).get "content_block").bind blockKind).map _ = _
  rw [Json.get_mkObj (by simp)]
  rfl

theorem token_contentBlockDelta (delta : Json) :
    token (AnthropicStreamEncoder.contentBlockDelta index delta) =
      (deltaKind delta).map (.blockDelta index) := by
  have h : (Json.mkObj [("type", .str "content_block_delta"), ("index", Json.ofNat index),
      ("delta", delta)]).getU64 "index" = some index :=
    MessagesReader.getU64_ofNat index (by simp) rfl
  unfold token AnthropicStreamEncoder.contentBlockDelta
  dsimp only
  rw [h]
  show (((Json.mkObj [("type", .str "content_block_delta"), ("index", Json.ofNat index),
    ("delta", delta)]).get "delta").bind deltaKind).map _ = _
  rw [Json.get_mkObj (by simp)]
  rfl

theorem token_contentBlockStop :
    token (AnthropicStreamEncoder.contentBlockStop index) = some (.blockStop index) := by
  have h : (Json.mkObj [("type", .str "content_block_stop"), ("index", Json.ofNat index)]).getU64
      "index" = some index := MessagesReader.getU64_ofNat index (by simp) rfl
  unfold token AnthropicStreamEncoder.contentBlockStop
  dsimp only
  rw [h]
  rfl

end

/-! ### Where the encoder stands -/

def openKind : OpenBlock → Kind
  | .text _ => .text
  | .reasoning _ => .thinking
  | .tool _ => .toolUse

def phaseOf (e : AnthropicStreamEncoder) : Phase :=
  if e.ended then .stopped
  else if e.messageStarted then .body e.nextIndex (e.openBlock.map openKind)
  else .fresh

/-- The open block is the last one, and before the start there is none. -/
structure Rep (e : AnthropicStreamEncoder) : Prop where
  last : ∀ block, e.openBlock = some block → block.index + 1 = e.nextIndex
  unstarted : e.messageStarted = false → e.openBlock = none ∧ e.nextIndex = 0

/-- A fragment of arguments finds the block of its call open.  A call that never started is at
block `0`. -/
def ArgsInTurn (e : AnthropicStreamEncoder) : AiStreamEvent → Prop
  | .toolCallArgsDelta index _ =>
      e.ended = false → e.openBlock = some (.tool ((e.toolIndexMap.get index).getD 0))
  | _ => True

/-- The frames lead the grammar to where the encoder then stands. -/
def Moves (e : AnthropicStreamEncoder) (r : List SseFrame × AnthropicStreamEncoder) : Prop :=
  Rep r.2 ∧ Acceptor.read Phase.frame (phaseOf e) r.1 = some (phaseOf r.2)

section

variable {e : AnthropicStreamEncoder}

theorem phaseOf_body (e : AnthropicStreamEncoder) (hended : e.ended = false)
    (hstarted : e.messageStarted = true) :
    phaseOf e = .body e.nextIndex (e.openBlock.map openKind) := by
  unfold phaseOf
  rw [hended, hstarted]
  rfl

/-- The message starts first, and nothing else changes. -/
theorem Moves.started {f : AnthropicStreamEncoder → List SseFrame × AnthropicStreamEncoder}
    (h : Rep e) (hended : e.ended = false)
    (hf : Moves { e with messageStarted := true } (f { e with messageStarted := true })) :
    Moves e (e.started f) := by
  unfold AnthropicStreamEncoder.started AnthropicStreamEncoder.ensureStarted
  by_cases hstarted : e.messageStarted = true
  · have hsame : { e with messageStarted := true } = e := by
      cases e
      cases hstarted
      rfl
    rw [hsame] at hf
    rw [if_pos hstarted]
    exact hf
  · have hnone := h.unstarted (by simpa using hstarted)
    rw [if_neg hstarted]
    refine ⟨hf.1, ?_⟩
    have hphase : phaseOf e = .fresh := by
      unfold phaseOf
      rw [hended, if_neg Bool.false_ne_true, if_neg hstarted]
    have hbody : phaseOf { e with messageStarted := true } = .body 0 none := by
      rw [phaseOf_body { e with messageStarted := true } hended rfl, hnone.1, hnone.2]
      rfl
    have hstart : Acceptor.read Phase.frame (phaseOf e) [e.messageStart] =
        some (phaseOf { e with messageStarted := true }) := by
      rw [hphase, hbody, Acceptor.read_singleton]
      rfl
    exact (Acceptor.read_append_of_some _ hstart _).trans hf.2

theorem closeBlock_moves (h : Rep e) (hended : e.ended = false)
    (hstarted : e.messageStarted = true) :
    e.closeBlock.2 = { e with openBlock := none } ∧ Moves e e.closeBlock := by
  unfold AnthropicStreamEncoder.closeBlock
  cases hopen : e.openBlock with
  | none =>
    have hsame : { e with openBlock := none } = e := by
      cases e
      cases hopen
      rfl
    exact ⟨hsame.symm, h, rfl⟩
  | some block =>
    refine ⟨rfl, ⟨nofun, fun hno => absurd (hno.symm.trans hstarted) Bool.false_ne_true⟩, ?_⟩
    rw [phaseOf_body e hended hstarted, hopen, Acceptor.read_singleton, Phase.frame,
      token_contentBlockStop, Option.bind_some]
    show (if block.index + 1 = e.nextIndex then _ else _) = _
    rw [if_pos (h.last block hopen)]
    exact (congrArg some (phaseOf_body { e with openBlock := none } hended hstarted)).symm

/-- A new block is opened, after the open one is stopped. -/
theorem startBlock_moves (h : Rep e) (hended : e.ended = false)
    (hstarted : e.messageStarted = true) (kind : ℕ → OpenBlock) (block : Json)
    (hindex : (kind e.nextIndex).index = e.nextIndex)
    (hkind : blockKind block = some (openKind (kind e.nextIndex))) :
    (e.startBlock kind block).2 =
        { e with openBlock := some (kind e.nextIndex), nextIndex := e.nextIndex + 1 } ∧
      Moves e (e.startBlock kind block) := by
  obtain ⟨hclosed, -, hread⟩ := closeBlock_moves h hended hstarted
  have hpair : e.startBlock kind block =
      (e.closeBlock.1 ++ [AnthropicStreamEncoder.contentBlockStart e.nextIndex block],
        { e with openBlock := some (kind e.nextIndex), nextIndex := e.nextIndex + 1 }) := by
    show (e.closeBlock.1 ++
        [AnthropicStreamEncoder.contentBlockStart e.closeBlock.2.nextIndex block],
      { e.closeBlock.2 with
        openBlock := some (kind e.closeBlock.2.nextIndex)
        nextIndex := e.closeBlock.2.nextIndex + 1 }) = _
    rw [hclosed]
  rw [hclosed] at hread
  rw [hpair]
  refine ⟨rfl, ⟨?_, fun hno => absurd (hno.symm.trans hstarted) Bool.false_ne_true⟩, ?_⟩
  · rintro b hb
    cases hb
    rw [hindex]
  · rw [Acceptor.read_append_of_some _ hread, Acceptor.read_singleton, Phase.frame,
      token_contentBlockStart, hkind, phaseOf_body { e with openBlock := none } hended hstarted,
      Option.map_some, Option.bind_some]
    show (if e.nextIndex = e.nextIndex then _ else _) = _
    rw [if_pos rfl]
    exact (congrArg some (phaseOf_body
      { e with openBlock := some (kind e.nextIndex), nextIndex := e.nextIndex + 1 }
      hended hstarted)).symm

/-- A delta of the open block's kind. -/
theorem read_delta (hended : e.ended = false) (hstarted : e.messageStarted = true)
    {delta : Json} {kind : Kind} (hkind : deltaKind delta = some kind) (index : ℕ) :
    Acceptor.read Phase.frame (phaseOf e) [AnthropicStreamEncoder.contentBlockDelta index delta] =
      if e.openBlock.map openKind = some kind ∧ index + 1 = e.nextIndex then some (phaseOf e)
      else none := by
  rw [phaseOf_body e hended hstarted, Acceptor.read_singleton, Phase.frame, token_contentBlockDelta,
    hkind, Option.map_some, Option.bind_some]
  cases e.openBlock with
  | none => exact (if_neg fun hc => nomatch hc.1).symm
  | some block =>
    show (if index + 1 = e.nextIndex ∧ kind = openKind block then _ else _) = _
    rw [Option.map_some]
    by_cases hc : index + 1 = e.nextIndex ∧ kind = openKind block
    · rw [if_pos hc, if_pos ⟨by rw [hc.2], hc.1⟩]
    · rw [if_neg hc, if_neg fun hc' => hc ⟨hc'.2, (Option.some.inj hc'.1).symm⟩]

theorem deltaKind_textDelta (text : String) :
    deltaKind (AnthropicStreamEncoder.textDelta text) = some .text := by
  unfold deltaKind AnthropicStreamEncoder.textDelta Json.getStr
  rw [Json.get_mkObj (by simp)]
  rfl

theorem deltaKind_thinkingDelta (text : String) :
    deltaKind (AnthropicStreamEncoder.thinkingDelta text) = some .thinking := by
  unfold deltaKind AnthropicStreamEncoder.thinkingDelta Json.getStr
  rw [Json.get_mkObj (by simp)]
  rfl

theorem deltaKind_inputJsonDelta (json : String) :
    deltaKind (AnthropicStreamEncoder.inputJsonDelta json) = some .toolUse := by
  unfold deltaKind AnthropicStreamEncoder.inputJsonDelta Json.getStr
  rw [Json.get_mkObj (by simp)]
  rfl

theorem blockKind_toolUseBlock (id name : String) :
    blockKind (AnthropicStreamEncoder.toolUseBlock id name) = some .toolUse := by
  unfold blockKind AnthropicStreamEncoder.toolUseBlock Json.getStr
  rw [Json.get_mkObj (by simp)]
  rfl

theorem opened_delta_moves (h : Rep e) (hended : e.ended = false)
    (hstarted : e.messageStarted = true) (kind : ℕ → OpenBlock) (block : Json) {delta : Json}
    (hindex : (kind e.nextIndex).index = e.nextIndex)
    (hkind : blockKind block = some (openKind (kind e.nextIndex)))
    (hdelta : deltaKind delta = some (openKind (kind e.nextIndex))) :
    Moves e ((e.startBlock kind block).1 ++
        [AnthropicStreamEncoder.contentBlockDelta e.nextIndex delta],
      (e.startBlock kind block).2) := by
  obtain ⟨hnext, hrep, hread⟩ := startBlock_moves h hended hstarted kind block hindex hkind
  refine ⟨hrep, ?_⟩
  rw [Acceptor.read_append_of_some _ hread, hnext,
    read_delta (e := { e with
      openBlock := some (kind e.nextIndex), nextIndex := e.nextIndex + 1 }) hended hstarted hdelta]
  exact if_pos ⟨rfl, rfl⟩

theorem encodeText_moves (h : Rep e) (hended : e.ended = false)
    (hstarted : e.messageStarted = true) (text : String) : Moves e (e.encodeText text) := by
  have hnew : Moves e ((e.startBlock .text AnthropicStreamEncoder.textBlock).1 ++
        [AnthropicStreamEncoder.contentBlockDelta e.nextIndex
          (AnthropicStreamEncoder.textDelta text)],
      (e.startBlock .text AnthropicStreamEncoder.textBlock).2) :=
    opened_delta_moves h hended hstarted .text _ rfl rfl (deltaKind_textDelta text)
  have hnext := (startBlock_moves h hended hstarted .text AnthropicStreamEncoder.textBlock
    rfl rfl).1
  unfold AnthropicStreamEncoder.encodeText
  cases hopen : e.openBlock with
  | none =>
    dsimp only
    rw [hnext] at hnew ⊢
    exact hnew
  | some block =>
    cases block with
    | text i =>
      refine ⟨h, ?_⟩
      dsimp only
      rw [hopen, List.nil_append, read_delta hended hstarted (deltaKind_textDelta text)]
      exact if_pos ⟨by rw [hopen]; rfl, h.last _ hopen⟩
    | reasoning i =>
      dsimp only
      rw [hnext] at hnew ⊢
      exact hnew
    | tool i =>
      dsimp only
      rw [hnext] at hnew ⊢
      exact hnew

theorem encodeReasoning_moves (h : Rep e) (hended : e.ended = false)
    (hstarted : e.messageStarted = true) (text : String) : Moves e (e.encodeReasoning text) := by
  have hnew : Moves e ((e.startBlock .reasoning AnthropicStreamEncoder.thinkingBlock).1 ++
        [AnthropicStreamEncoder.contentBlockDelta e.nextIndex
          (AnthropicStreamEncoder.thinkingDelta text)],
      (e.startBlock .reasoning AnthropicStreamEncoder.thinkingBlock).2) :=
    opened_delta_moves h hended hstarted .reasoning _ rfl rfl (deltaKind_thinkingDelta text)
  have hnext := (startBlock_moves h hended hstarted .reasoning AnthropicStreamEncoder.thinkingBlock
    rfl rfl).1
  unfold AnthropicStreamEncoder.encodeReasoning
  cases hopen : e.openBlock with
  | none =>
    dsimp only
    rw [hnext] at hnew ⊢
    exact hnew
  | some block =>
    cases block with
    | reasoning i =>
      refine ⟨h, ?_⟩
      dsimp only
      rw [hopen, List.nil_append, read_delta hended hstarted (deltaKind_thinkingDelta text)]
      exact if_pos ⟨by rw [hopen]; rfl, h.last _ hopen⟩
    | text i =>
      dsimp only
      rw [hnext] at hnew ⊢
      exact hnew
    | tool i =>
      dsimp only
      rw [hnext] at hnew ⊢
      exact hnew

theorem Moves.of_silent {e' : AnthropicStreamEncoder} {r : List SseFrame}
    {e₁ : AnthropicStreamEncoder} (h : Moves e (r, e₁)) (hended : e'.ended = e₁.ended)
    (hstarted : e'.messageStarted = e₁.messageStarted) (hopen : e'.openBlock = e₁.openBlock)
    (hindex : e'.nextIndex = e₁.nextIndex) : Moves e (r, e') := by
  obtain ⟨hrep, hread⟩ := h
  have hphase : phaseOf e' = phaseOf e₁ := by
    unfold phaseOf
    rw [hended, hstarted, hopen, hindex]
  refine ⟨⟨?_, ?_⟩, by rw [hphase]; exact hread⟩
  · intro block hblock
    rw [hindex]
    exact hrep.last block (hopen ▸ hblock)
  · intro hno
    rw [hopen, hindex]
    exact hrep.unstarted (hstarted ▸ hno)

theorem encode_moves (h : Rep e) {event : AiStreamEvent} (hok : ArgsInTurn e event) :
    Moves e (e.encode event) := by
  have hsilent : Moves e ([], e) := ⟨h, rfl⟩
  unfold AnthropicStreamEncoder.encode
  by_cases hended : e.ended = true
  · rw [if_pos hended]
    exact hsilent
  · rw [if_neg hended]
    have hended : e.ended = false := by simpa using hended
    have hrep : Rep { e with messageStarted := true } := ⟨h.last, nofun⟩
    cases event with
    | messageStart id model =>
      have hnamed : Rep { e with
          id := if e.id = "" then id else e.id
          model := if e.model = "" then model else e.model } := ⟨h.last, h.unstarted⟩
      have hmoves := Moves.started (f := fun e => ([], e)) hnamed hended
        ⟨⟨h.last, nofun⟩, rfl⟩
      unfold AnthropicStreamEncoder.started at hmoves
      simp only [List.append_nil] at hmoves
      exact hmoves
    | textDelta text =>
      dsimp only
      split
      · exact hsilent
      · exact Moves.started h hended (encodeText_moves hrep hended rfl text)
    | reasoningDelta text =>
      exact Moves.started h hended (encodeReasoning_moves hrep hended rfl text)
    | toolCallStart tool =>
      refine Moves.started h hended ?_
      have hmoves := (startBlock_moves hrep hended rfl .tool
        (AnthropicStreamEncoder.toolUseBlock tool.id tool.name) rfl
        (blockKind_toolUseBlock tool.id tool.name)).2
      exact hmoves.of_silent rfl rfl rfl rfl
    | toolCallArgsDelta index json =>
      have hopen := hok hended
      refine Moves.started h hended ⟨hrep, ?_⟩
      rw [read_delta (e := { e with messageStarted := true }) hended rfl
        (deltaKind_inputJsonDelta json)]
      refine if_pos ⟨?_, h.last _ hopen⟩
      show e.openBlock.map openKind = _
      rw [hopen]
      rfl
    | toolCallEnd index =>
      dsimp only
      split
      · next openIndex hopen =>
        split
        · have hstarted : e.messageStarted = true := by
            by_contra hno
            have hnone := (h.unstarted (by simpa using hno)).1
            rw [hopen] at hnone
            cases hnone
          exact (closeBlock_moves h hended hstarted).2
        · exact hsilent
      · exact hsilent
    | usageDelta usage => exact hsilent.of_silent rfl rfl rfl rfl
    | messageEnd finish =>
      refine Moves.started h hended ?_
      obtain ⟨hclosed, -, hread⟩ :=
        closeBlock_moves (e := { e with messageStarted := true }) hrep hended rfl
      dsimp only
      rw [hclosed] at hread ⊢
      refine ⟨⟨nofun, nofun⟩, ?_⟩
      rw [Acceptor.read_append_of_some _ hread,
        phaseOf_body { e with messageStarted := true, openBlock := none } hended rfl]
      rfl
    | outputImage _ _ => exact hsilent
    | citation _ _ => exact hsilent
    | serverToolCall _ _ _ => exact hsilent
    | error _ _ => exact hsilent

theorem encode_stuck (h : Rep e) {event : AiStreamEvent} (hbad : ¬ ArgsInTurn e event) :
    Acceptor.read Phase.frame (phaseOf e) (e.encode event).1 = none := by
  cases event with
  | toolCallArgsDelta index json =>
    obtain ⟨hended, hopen⟩ := Classical.not_imp.mp hbad
    unfold AnthropicStreamEncoder.encode
    rw [if_neg (by rw [hended]; exact Bool.false_ne_true)]
    have hrep : Rep { e with messageStarted := true } := ⟨h.last, nofun⟩
    have hstart := (Moves.started (f := fun e => ([], e)) h hended ⟨hrep, rfl⟩).2
    have hnext : e.ensureStarted.2 = { e with messageStarted := true } := by
      unfold AnthropicStreamEncoder.ensureStarted
      split
      · next hstarted =>
        cases e
        cases hstarted
        rfl
      · rfl
    unfold AnthropicStreamEncoder.started at hstart ⊢
    dsimp only at hstart ⊢
    rw [List.append_nil] at hstart
    rw [Acceptor.read_append_of_some _ hstart, hnext,
      read_delta (e := { e with messageStarted := true }) hended rfl
        (deltaKind_inputJsonDelta json)]
    -- an open block of a call is the last block, so it is the block of this call
    refine if_neg fun hc => hopen ?_
    obtain ⟨hkind, hindex⟩ := hc
    obtain ⟨block, hblock, htool⟩ := Option.map_eq_some_iff.mp hkind
    have hlast := h.last block hblock
    rw [hblock]
    cases block with
    | tool i =>
      have hi : i = (e.toolIndexMap.get index).getD 0 := by
        have hi : i + 1 = (e.toolIndexMap.get index).getD 0 + 1 := hlast.trans hindex.symm
        omega
      rw [hi]
    | text i => cases htool
    | reasoning i => cases htool
  | _ => exact absurd trivial hbad

end

/-! ### A whole stream -/

/-- The encoder as a machine. -/
def encoding (e : AnthropicStreamEncoder) (event : AiStreamEvent) :
    AnthropicStreamEncoder × List SseFrame := ((e.encode event).2, (e.encode event).1)

theorem encodeStream_eq_run (e : AnthropicStreamEncoder) (events : List AiStreamEvent) :
    e.encodeStream events = (Machine.run encoding e events).2 := by
  induction events generalizing e with
  | nil => rfl
  | cons event events ih =>
    rw [AnthropicStreamEncoder.encodeStream, ih]
    rfl

/-- The states of the encoder, each with the event that comes next. -/
def steps (e : AnthropicStreamEncoder) (events : List AiStreamEvent) :
    List (AnthropicStreamEncoder × AiStreamEvent) :=
  Machine.visited (fun e event => (e.encode event).2) e events

/-- **The frames of the Messages encoder are the beginning of a stream** exactly when every fragment
of arguments, up to the end, finds the block of its call open. -/
theorem messages_wellFormed_iff (id model : String) (events : List AiStreamEvent) :
    WellFormed (({ id := id, model := model } : AnthropicStreamEncoder).encodeStream events) ↔
      ∀ v ∈ steps { id := id, model := model } events, ArgsInTurn v.1 v.2 := by
  have hrep : Rep ({ id := id, model := model } : AnthropicStreamEncoder) :=
    ⟨nofun, fun _ => ⟨rfl, rfl⟩⟩
  rw [encodeStream_eq_run]
  exact @Acceptor.isSome_read_run_iff Phase SseFrame _ _ Phase.frame encoding phaseOf Rep ArgsInTurn
    (fun e event h hok => @encode_moves e h event hok)
    (fun e event h hbad => @encode_stuck e h event hbad) _ hrep events

/-- A chunk of a Chat stream with a fragment of a call. -/
def callChunk (index : ℕ) (arguments : String) : Json :=
  Json.mkObj [("choices", .arr [Json.mkObj [("delta", Json.mkObj [("tool_calls", .arr
    [Json.mkObj [("index", Json.ofNat index), ("id", .str "call"), ("function", Json.mkObj
      [("name", .str "get_weather"), ("arguments", .str arguments)])]])])]])]

/-- The arguments of a call come in a block that has been closed for the next call. -/
theorem interleaved_calls_malformed :
    ¬ ∀ (id model : String) (chunks : List Json),
      WellFormed (({ id := id, model := model } : AnthropicStreamEncoder).encodeStream
        (({} : OpenAiStreamDecoder).decodeStream chunks)) := by
  intro hall
  have hno : ¬ WellFormed (({ id := "", model := "" } : AnthropicStreamEncoder).encodeStream
      (({} : OpenAiStreamDecoder).decodeStream
        [callChunk 0 "[", callChunk 1 "[", callChunk 0 "]"])) := by
    unfold WellFormed
    decide +kernel
  exact hno (hall "" "" _)

end MessagesGrammar

end Switchback
