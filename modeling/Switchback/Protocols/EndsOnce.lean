import Switchback.Lib.Lifecycle
import Switchback.Adapters.Codec
import Switchback.Protocols.Gemini

/-!
# Every decoded stream ends once

The encoders and the collector rely on one life cycle of the canonical stream: it starts before
it says anything and, once started, ends once and says nothing after that.  The four decoders
reach it in different ways.
-/

namespace Switchback

open Lib

/-! ### The life cycle -/

namespace AiStreamEvent

def isMessageStart : AiStreamEvent → Bool
  | messageStart .. => true
  | _ => false

/-- Text, reasoning and tool events. -/
def isBody : AiStreamEvent → Bool
  | textDelta _ | reasoningDelta _ | toolCallStart _ | toolCallArgsDelta .. | toolCallEnd _
  | serverToolCall .. => true
  | _ => false

/-- Everything a message can hold. -/
def isContent : AiStreamEvent → Bool
  | outputImage .. | citation .. => true
  | event => event.isBody

variable {event : AiStreamEvent}

/-- A body event is content. -/
theorem isContent_of_isBody (h : event.isBody = true) : event.isContent = true := by
  cases event <;> simp_all [isContent, isBody]

theorem isBody_eq_false (h : event.isContent = false) : event.isBody = false := by
  rw [Bool.eq_false_iff]
  intro hbody
  rw [isContent_of_isBody hbody] at h
  exact absurd h (by simp)

theorem boundary_of_isContent (h : event.isContent = true) :
    event.isMessageStart = false ∧ event.isEnd = false := by
  cases event <;> simp_all [isContent, isBody, isMessageStart, isEnd]

end AiStreamEvent

@[simps] def eventRoles : Roles AiStreamEvent where
  opens := AiStreamEvent.isMessageStart
  speaks := AiStreamEvent.isContent
  utters := AiStreamEvent.isBody
  closes := AiStreamEvent.isEnd

/-- At most one start, before every content event; and if there is one, exactly one end, with no
text, reasoning or tool event after it. -/
def EndsOnce (events : List AiStreamEvent) : Prop := eventRoles.Once events

/-- A frame beside the frames before it. -/
abbrev Placed := List Json × Json

theorem cutEnd_countP {frames : List Json} {q : Json → Bool} {started ended : Bool}
    {events : List AiStreamEvent} (hs : started = true) (he : ended = frames.any q)
    (hevents : events.countP AiStreamEvent.isEnd = 1) :
    (if started && !ended then events else []).countP AiStreamEvent.isEnd =
      1 - (timeline [] frames).countP fun p => q p.2 := by
  have hcount : ((timeline [] frames).countP fun p => q p.2) = frames.countP q := by
    rw [← map_snd_timeline [] frames, List.countP_map, map_snd_timeline]
    rfl
  rw [hcount, hs, he]
  cases hany : frames.any q with
  | true =>
    have hpos : 0 < frames.countP q := List.countP_pos_iff.2 (List.any_eq_true.1 hany)
    simp only [Bool.not_true, Bool.and_false, Bool.false_eq_true, if_false, List.countP_nil]
    omega
  | false =>
    have hzero : frames.countP q = 0 := by
      rw [List.countP_eq_zero]
      exact List.any_eq_false.1 hany
    simp [hzero, hevents]

theorem any_of_forall {p : AiStreamEvent → Bool} {events : List AiStreamEvent}
    (h : ∀ e ∈ events, p e = true) : events.any p = !events.isEmpty := by
  cases events with
  | nil => rfl
  | cons e events => simp [h e List.mem_cons_self]

section Blocks

variable {R : Roles Placed} {p : Placed} {events : List AiStreamEvent}

/-- A frame that is content and nothing else. -/
theorem block_of_body (hopens : R.opens p = false) (hcloses : R.closes p = false)
    (hspeaks : R.speaks p = !events.isEmpty) (hutters : R.utters p = !events.isEmpty)
    (hbody : ∀ e ∈ events, e.isBody = true) : R.Block eventRoles p events := by
  have hcontent : ∀ e ∈ events, e.isContent = true := fun e he =>
    AiStreamEvent.isContent_of_isBody (hbody e he)
  refine .of_quiet hopens hcloses ?_ ?_ fun e he =>
    AiStreamEvent.boundary_of_isContent (hcontent e he)
  · rw [hspeaks, eventRoles, any_of_forall hcontent]
  · rw [hutters, eventRoles, any_of_forall hbody]

/-- A frame that says nothing. -/
theorem block_of_silent (hopens : R.opens p = false) (hcloses : R.closes p = false)
    (hspeaks : R.speaks p = false) (hutters : R.utters p = false)
    (hsilent : ∀ e ∈ events, e.isContent = false ∧ e.isMessageStart = false ∧
      e.isEnd = false) : R.Block eventRoles p events := by
  refine .of_quiet hopens hcloses ?_ ?_ fun e he => (hsilent e he).2
  · rw [hspeaks, List.any_eq_false]
    exact fun e he => by simp [eventRoles, (hsilent e he).1]
  · rw [hutters, List.any_eq_false]
    exact fun e he => by simp [eventRoles, AiStreamEvent.isBody_eq_false (hsilent e he).1]

end Blocks

/-- **Decoders as machines.**  When the events of each frame play the role of the frame and the
end adds a missing end, the decoded stream ends once iff the frames are orderly. -/
theorem endsOnce_machine_iff {σ : Type*} {step : σ → Json → σ × List AiStreamEvent}
    {R : Roles Placed} {d : σ} {frames : List Json} {finish : List AiStreamEvent}
    (hblock : ∀ before frame,
      R.Block eventRoles (before, frame) (step (Machine.run step d before).1 frame).2)
    (hquiet : ∀ e ∈ finish, e.isMessageStart = false ∧ e.isContent = false)
    (hend : (∃ p ∈ timeline [] frames, R.opens p = true) →
      finish.countP AiStreamEvent.isEnd = 1 - (timeline [] frames).countP R.closes) :
    EndsOnce ((Machine.run step d frames).2 ++ finish) ↔ R.Orderly (timeline [] frames) := by
  have hrun := run_eq_flatMap_timeline step d [] frames
  rw [Machine.run] at hrun
  rw [hrun, EndsOnce]
  refine Roles.once_flatMap_append_iff (fun p _ => hblock p.1 p.2) (fun e he => ?_) hend
  exact ⟨(hquiet e he).1, (hquiet e he).2, AiStreamEvent.isBody_eq_false (hquiet e he).2⟩

/-! ### Chat chunks -/

namespace OpenAiStreamDecoder

/-- The indices of the calls in a chunk. -/
def callIndices (chunk : Json) : List ℕ :=
  ((chunkChoice chunk).elim [] ChunkChoice.toolCalls).map ToolCallFragment.index

def carriesFinish (chunk : Json) : Bool := (chunkChoice chunk).any fun choice =>
  choice.finish.isSome

/-- The chunk has text, arguments, or a call that no earlier chunk has. -/
def carriesContent (before : List Json) (chunk : Json) : Bool :=
  (chunkChoice chunk).any fun choice => choice.content ≠ "" ||
    choice.toolCalls.any fun f => f.arguments.isSome ||
      !before.any fun earlier => f.index ∈ callIndices earlier

@[simps] def roles : Roles Placed where
  opens p := p.1.isEmpty
  speaks p := carriesContent p.1 p.2
  utters p := carriesContent p.1 p.2
  closes p := carriesFinish p.2

def step (d : OpenAiStreamDecoder) (chunk : Json) : OpenAiStreamDecoder × List AiStreamEvent :=
  (d.decode chunk).swap

variable (d : OpenAiStreamDecoder) {seen : List ℕ} {fragments : List ToolCallFragment}

theorem decodeStream_eq (chunks : List Json) :
    d.decodeStream chunks =
      (Machine.run step d chunks).2 ++ (Machine.run step d chunks).1.finish :=
  run_append_finish (fun _ => rfl) (fun _ _ _ => rfl) d chunks

variable (chunk : Json)

theorem decode_started : (d.decode chunk).2.started = true := by
  unfold decode
  cases chunkChoice chunk <;> rfl

theorem decode_ended : (d.decode chunk).2.ended = (d.ended || carriesFinish chunk) := by
  unfold decode carriesFinish
  cases chunkChoice chunk <;> simp

theorem mem_seeIndex {index i : ℕ} : i ∈ seeIndex seen index ↔ i ∈ seen ∨ i = index := by
  unfold seeIndex
  split_ifs with h
  · constructor
    · exact .inl
    · rintro (hi | rfl)
      · exact hi
      · exact h
  · simp

theorem mem_toolCallEvents_seen {i : ℕ} :
    i ∈ (toolCallEvents seen fragments).2 ↔
      i ∈ seen ∨ i ∈ fragments.map ToolCallFragment.index := by
  induction fragments generalizing seen with
  | nil => simp [toolCallEvents]
  | cons f fragments ih => simp [toolCallEvents, ih, mem_seeIndex, or_assoc]

theorem decode_seen (i : ℕ) :
    decide (i ∈ (d.decode chunk).2.seenToolCalls) =
      (decide (i ∈ d.seenToolCalls) || decide (i ∈ callIndices chunk)) := by
  unfold decode callIndices
  cases chunkChoice chunk with
  | none => simp
  | some choice => simp [mem_toolCallEvents_seen]

theorem fragmentEvents_isBody {f : ToolCallFragment} :
    ∀ e ∈ fragmentEvents seen f, e.isBody = true := by
  intro e he
  rw [fragmentEvents, List.mem_append] at he
  rcases he with he | he
  · split_ifs at he
    · simp at he
    · rw [List.mem_singleton] at he
      exact he ▸ rfl
  · cases harguments : f.arguments with
    | none => simp [harguments] at he
    | some arguments =>
      rw [harguments, Option.elim_some, List.mem_singleton] at he
      exact he ▸ rfl

theorem fragmentEvents_eq_nil {f : ToolCallFragment} :
    fragmentEvents seen f = [] ↔ f.arguments = none ∧ f.index ∈ seen := by
  unfold fragmentEvents
  cases f.arguments <;> by_cases hseen : f.index ∈ seen <;> simp [hseen]

theorem toolCallEvents_isBody : ∀ e ∈ (toolCallEvents seen fragments).1, e.isBody = true := by
  induction fragments generalizing seen with
  | nil => simp [toolCallEvents]
  | cons f fragments ih =>
    intro e he
    rw [toolCallEvents, List.mem_append] at he
    rcases he with he | he
    · exact fragmentEvents_isBody e he
    · exact ih e he

theorem toolCallEvents_eq_nil :
    (toolCallEvents seen fragments).1 = [] ↔
      ∀ f ∈ fragments, f.arguments = none ∧ f.index ∈ seen := by
  induction fragments generalizing seen with
  | nil => simp [toolCallEvents]
  | cons f fragments ih =>
    rw [toolCallEvents, List.append_eq_nil_iff, fragmentEvents_eq_nil, ih, List.forall_mem_cons]
    refine and_congr_right fun hf => ?_
    have hsame : seeIndex seen f.index = seen := by simp [seeIndex, hf.2]
    rw [hsame]

theorem usageEvents_quiet :
    ∀ e ∈ usageEvents chunk, e.isContent = false ∧ e.isMessageStart = false ∧
      e.isEnd = false := by
  intro e he
  simp only [usageEvents] at he
  split_ifs at he
  · rw [List.mem_singleton] at he
    exact he ▸ ⟨rfl, rfl, rfl⟩
  · simp at he

/-- What a chunk says between the start and the end. -/
def said (d : OpenAiStreamDecoder) (chunk : Json) : List AiStreamEvent :=
  usageEvents chunk ++ (chunkChoice chunk).elim [] fun choice =>
    (if choice.content = "" then [] else [.textDelta choice.content]) ++
      (toolCallEvents d.seenToolCalls choice.toolCalls).1

theorem decode_says :
    (d.decode chunk).1 =
      (if d.started then []
        else [.messageStart ((chunk.getStr "id").getD "") ((chunk.getStr "model").getD "")]) ++
      d.said chunk ++
      ((chunkChoice chunk).bind ChunkChoice.finish).toList.map .messageEnd := by
  unfold decode said
  cases chunkChoice chunk with
  | none => simp
  | some choice => cases hfinish : choice.finish <;> simp [hfinish]

section Run

variable (chunks : List Json)

theorem run_started :
    (Machine.run step ({} : OpenAiStreamDecoder) chunks).1.started = !chunks.isEmpty := by
  rw [run_flag started (fun _ => true) fun d c => by simp [step, decode_started]]
  cases chunks <;> rfl

theorem run_ended :
    (Machine.run step ({} : OpenAiStreamDecoder) chunks).1.ended = chunks.any carriesFinish := by
  rw [run_flag ended carriesFinish decode_ended, Bool.false_or]

theorem run_seen (i : ℕ) :
    decide (i ∈ (Machine.run step ({} : OpenAiStreamDecoder) chunks).1.seenToolCalls) =
      chunks.any fun chunk => i ∈ callIndices chunk := by
  rw [run_flag (fun d => decide (i ∈ d.seenToolCalls)) (fun c => decide (i ∈ callIndices c))
    fun d c => decode_seen d c i]
  simp

end Run

theorem said_boundary : ∀ e ∈ d.said chunk, e.isMessageStart = false ∧ e.isEnd = false := by
  intro e he
  rw [said, List.mem_append] at he
  rcases he with he | he
  · exact (usageEvents_quiet chunk e he).2
  · cases hchoice : chunkChoice chunk with
    | none => simp [hchoice] at he
    | some choice =>
      have hbody : e.isBody = true := by
        rw [hchoice, Option.elim_some, List.mem_append] at he
        rcases he with he | he
        · split_ifs at he
          · simp at he
          · rw [List.mem_singleton] at he
            exact he ▸ rfl
        · exact toolCallEvents_isBody e he
      exact AiStreamEvent.boundary_of_isContent (AiStreamEvent.isContent_of_isBody hbody)

theorem said_any {before : List Json}
    (hseen : ∀ i, decide (i ∈ d.seenToolCalls) = before.any fun earlier => i ∈ callIndices earlier)
    {p : AiStreamEvent → Bool} (hbody : ∀ e, e.isBody = true → p e = true)
    (hquiet : ∀ e, e.isContent = false → p e = false) :
    (d.said chunk).any p = carriesContent before chunk := by
  have husage : (usageEvents chunk).any p = false :=
    List.any_eq_false.2 fun e he => by simp [hquiet e (usageEvents_quiet chunk e he).1]
  rw [said, List.any_append, husage, Bool.false_or, carriesContent]
  cases chunkChoice chunk with
  | none => rfl
  | some choice =>
    have htools : ((toolCallEvents d.seenToolCalls choice.toolCalls).1).any p =
        choice.toolCalls.any fun f => f.arguments.isSome ||
          !before.any fun earlier => f.index ∈ callIndices earlier := by
      rw [any_of_forall fun e he => hbody e (toolCallEvents_isBody e he), Bool.eq_iff_iff,
        Bool.not_eq_true', List.isEmpty_eq_false_iff, ne_eq, toolCallEvents_eq_nil,
        List.any_eq_true]
      push Not
      refine exists_congr fun f => and_congr_right fun _ => ?_
      rw [← hseen]
      cases f.arguments <;> simp
    rw [Option.elim_some, List.any_append, htools, Option.any_some]
    split_ifs with hcontent
    · simp [hcontent]
    · simp [hcontent, hbody (.textDelta choice.content) rfl]

/-- **The events of a chunk play its role.** -/
theorem block (before : List Json) (chunk : Json) :
    Roles.Block roles eventRoles (before, chunk)
      (step (Machine.run step {} before).1 chunk).2 := by
  have hstarted := run_started before
  have hseen := run_seen before
  generalize (Machine.run step ({} : OpenAiStreamDecoder) before).1 = d at hstarted hseen
  rw [step, Prod.snd_swap, decode_says]
  refine .of_parts ?_ ?_
    (said_any d chunk hseen (fun _ => AiStreamEvent.isContent_of_isBody) fun _ h => h)
    (said_any d chunk hseen (fun _ h => h) fun _ => AiStreamEvent.isBody_eq_false) ?_ ?_ ?_
  · rw [hstarted]
    cases before <;> rfl
  · simp only [roles, carriesFinish, eventRoles]
    cases chunkChoice chunk with
    | none => rfl
    | some choice => cases hfinish : choice.finish <;> simp [hfinish, AiStreamEvent.isEnd]
  · intro e he
    split_ifs at he
    · simp at he
    · rw [List.mem_singleton] at he
      exact he ▸ ⟨rfl, rfl, rfl, rfl⟩
  · exact said_boundary d chunk
  · intro e he
    obtain ⟨finish, -, rfl⟩ := List.mem_map.1 he
    exact ⟨rfl, rfl, rfl⟩

theorem endsOnce_iff (chunks : List Json) :
    EndsOnce (decodeStream {} chunks) ↔ roles.Orderly (timeline [] chunks) := by
  rw [decodeStream_eq]
  refine endsOnce_machine_iff block ?_ fun hopened => ?_
  · intro e he
    rw [finish] at he
    split_ifs at he
    · rw [List.mem_singleton] at he
      exact he ▸ ⟨rfl, rfl⟩
    · simp at he
  · have hstarted : (Machine.run step ({} : OpenAiStreamDecoder) chunks).1.started = true := by
      rw [run_started]
      cases chunks with
      | nil => simp [timeline] at hopened
      | cons => rfl
    exact cutEnd_countP hstarted (run_ended chunks) rfl

end OpenAiStreamDecoder

/-! ### Messages frames -/

namespace AnthropicStreamDecoder

/-- The frame opens call `index`. -/
def opensCall (index : ℕ) (frame : Json) : Bool :=
  messagesFrameKind frame = .contentBlockStart && (blockCall frame).any fun start =>
    start.index = index

/-- The frame opens a call or a block with text, has a delta that can be read, or stops a block
that an earlier frame opened as a call. -/
def carriesContent (before : List Json) (frame : Json) : Bool :=
  match messagesFrameKind frame with
  | .contentBlockStart => (blockCall frame).isSome || (blockText frame).isSome
  | .contentBlockDelta => (blockDelta frame).isSome
  | .contentBlockStop => before.any (opensCall (indexOf frame))
  | _ => false

def isStart (frame : Json) : Bool := messagesFrameKind frame = .messageStart

def isStop (frame : Json) : Bool := messagesFrameKind frame = .messageStop

@[simps] def roles : Roles Placed where
  opens p := isStart p.2
  speaks p := carriesContent p.1 p.2
  utters p := carriesContent p.1 p.2
  closes p := isStop p.2

def step (d : AnthropicStreamDecoder) (frame : Json) :
    AnthropicStreamDecoder × List AiStreamEvent := (d.decode frame).swap

variable (d : AnthropicStreamDecoder)

theorem decodeStream_eq (frames : List Json) :
    d.decodeStream frames =
      (Machine.run step d frames).2 ++ (Machine.run step d frames).1.finish :=
  run_append_finish (fun _ => rfl) (fun _ _ _ => rfl) d frames

variable (frame : Json)

theorem decode_started :
    (d.decode frame).2.started = (d.started || isStart frame) := by
  unfold decode isStart
  cases messagesFrameKind frame with
  | contentBlockStart => cases blockCall frame <;> simp
  | _ => simp [noteDelta]

theorem decode_ended :
    (d.decode frame).2.ended = (d.ended || isStop frame) := by
  unfold decode isStop
  cases messagesFrameKind frame with
  | contentBlockStart => cases blockCall frame <;> simp
  | _ => simp [noteDelta]

theorem decode_toolBlocks (i : ℕ) :
    decide (i ∈ (d.decode frame).2.toolBlocks) =
      (decide (i ∈ d.toolBlocks) || opensCall i frame) := by
  unfold decode opensCall
  cases messagesFrameKind frame with
  | contentBlockStart =>
    cases blockCall frame with
    | none => simp
    | some start => simp [List.mem_insert_iff, Bool.or_comm, eq_comm]
  | messageDelta => exact (Bool.or_false _).symm
  | _ => simp

section Run

variable (frames : List Json)

theorem run_started :
    (Machine.run step ({} : AnthropicStreamDecoder) frames).1.started = frames.any isStart := by
  rw [run_flag started isStart decode_started, Bool.false_or]

theorem run_ended :
    (Machine.run step ({} : AnthropicStreamDecoder) frames).1.ended = frames.any isStop := by
  rw [run_flag ended isStop decode_ended, Bool.false_or]

theorem run_toolBlocks (i : ℕ) :
    decide (i ∈ (Machine.run step ({} : AnthropicStreamDecoder) frames).1.toolBlocks) =
      frames.any (opensCall i) := by
  rw [run_flag (fun d => decide (i ∈ d.toolBlocks)) (opensCall i) fun d f =>
    decode_toolBlocks d f i]
  simp

end Run

theorem blockDelta_isBody {frame : Json} {e : AiStreamEvent} (h : blockDelta frame = some e) :
    e.isBody = true := by
  unfold blockDelta at h
  simp only at h
  split at h
  · obtain ⟨text, -, rfl⟩ := Option.map_eq_some_iff.1 h
    rfl
  · obtain ⟨json, -, rfl⟩ := Option.map_eq_some_iff.1 h
    rfl
  · obtain ⟨text, -, rfl⟩ := Option.map_eq_some_iff.1 h
    rfl
  · cases h

/-- **The events of a frame play its role.** -/
theorem block (before : List Json) (frame : Json) :
    Roles.Block roles eventRoles (before, frame)
      (step (Machine.run step {} before).1 frame).2 := by
  have hblocks := run_toolBlocks before
  generalize (Machine.run step ({} : AnthropicStreamDecoder) before).1 = d at hblocks
  rw [step, Prod.snd_swap]
  unfold decode
  cases hkind : messagesFrameKind frame with
  | messageStart =>
    constructor <;> simp [isStart, isStop, carriesContent, hkind, AiStreamEvent.isMessageStart,
      AiStreamEvent.isContent, AiStreamEvent.isBody, AiStreamEvent.isEnd]
  | contentBlockStart =>
    cases hcall : blockCall frame with
    | some start =>
      refine block_of_body ?_ ?_ ?_ ?_ ?_ <;>
        simp [isStart, isStop, carriesContent, hkind, hcall, AiStreamEvent.isBody]
    | none =>
      cases htext : blockText frame <;> refine block_of_body ?_ ?_ ?_ ?_ ?_ <;>
        simp [isStart, isStop, carriesContent, hkind, hcall, htext, AiStreamEvent.isBody]
  | contentBlockDelta =>
    cases hdelta : blockDelta frame with
    | none =>
      refine block_of_body ?_ ?_ ?_ ?_ ?_ <;>
        simp [isStart, isStop, carriesContent, hkind, hdelta]
    | some e =>
      have hbody := blockDelta_isBody hdelta
      refine block_of_body ?_ ?_ ?_ ?_ ?_ <;>
        simp [isStart, isStop, carriesContent, hkind, hdelta, hbody]
  | contentBlockStop =>
    by_cases hmem : indexOf frame ∈ d.toolBlocks
    · have hopened : before.any (opensCall (indexOf frame)) = true := by
        rw [← hblocks, decide_eq_true hmem]
      refine block_of_body ?_ ?_ ?_ ?_ ?_ <;>
        simp only [roles, isStart, isStop, carriesContent, hkind, hopened, hmem] <;> simp
      rfl
    · have hopened : before.any (opensCall (indexOf frame)) = false := by
        rw [← hblocks, decide_eq_false hmem]
      refine block_of_body ?_ ?_ ?_ ?_ ?_ <;>
        simp only [roles, isStart, isStop, carriesContent, hkind, hopened, hmem] <;> simp
  | messageDelta =>
    refine block_of_silent ?_ ?_ ?_ ?_ ?_ <;>
      simp [isStart, isStop, carriesContent, hkind, AiStreamEvent.isContent,
        AiStreamEvent.isBody, AiStreamEvent.isMessageStart, AiStreamEvent.isEnd]
  | messageStop =>
    constructor <;> simp [isStart, isStop, carriesContent, hkind, AiStreamEvent.isMessageStart,
      AiStreamEvent.isContent, AiStreamEvent.isBody, AiStreamEvent.isEnd]
  | other =>
    refine block_of_silent ?_ ?_ ?_ ?_ ?_ <;> simp [isStart, isStop, carriesContent, hkind]

theorem endsOnce_iff (frames : List Json) :
    EndsOnce (decodeStream {} frames) ↔ roles.Orderly (timeline [] frames) := by
  rw [decodeStream_eq]
  refine endsOnce_machine_iff block ?_ fun hopened => ?_
  · intro e he
    rw [finish] at he
    split_ifs at he
    · rw [List.mem_singleton] at he
      exact he ▸ ⟨rfl, rfl⟩
    · simp at he
  · have hstarted : (Machine.run step ({} : AnthropicStreamDecoder) frames).1.started = true := by
      obtain ⟨p, hp, hstart⟩ := hopened
      rw [run_started, List.any_eq_true, ← map_snd_timeline [] frames]
      exact ⟨p.2, List.mem_map_of_mem hp, hstart⟩
    exact cutEnd_countP hstarted (run_ended frames) rfl

end AnthropicStreamDecoder

/-! ### Responses frames -/

namespace OpenAiResponsesDecoder

/-- The frame adds call `index`. -/
def opensCall (index : ℕ) (frame : Json) : Bool :=
  responsesFrameKind frame = .outputItemAdded && (itemCall frame).any fun start =>
    start.index = index

/-- The frame has a delta, adds a call that no earlier frame added, ends one that an earlier frame
added, or is about a tool of the provider. -/
def carriesBody (before : List Json) (frame : Json) : Bool :=
  match responsesFrameKind frame with
  | .outputTextDelta | .reasoningDelta | .argumentsDelta => (frame.getStr "delta").isSome
  | .outputItemAdded => (itemCall frame).any fun start => !before.any (opensCall start.index)
  | .argumentsDone => before.any (opensCall (responsesOutputIndex frame))
  | .serverTool .. => true
  | _ => false

/-- Content is also an image or a citation. -/
def carriesContent (before : List Json) (frame : Json) : Bool :=
  match responsesFrameKind frame with
  | .annotationAdded => (pointerStr ["annotation", "url"] frame).isSome
  | .imageCompleted =>
      (((frame.get "result").or (frame.pointer ["item", "result"])).bind Json.asStr).isSome
  | _ => carriesBody before frame

def isCreated (frame : Json) : Bool := responsesFrameKind frame = .created

def isCompleted (frame : Json) : Bool := responsesFrameKind frame = .completed

@[simps] def roles : Roles Placed where
  opens p := isCreated p.2
  speaks p := carriesContent p.1 p.2
  utters p := carriesBody p.1 p.2
  closes p := isCompleted p.2

def step (d : OpenAiResponsesDecoder) (frame : Json) :
    OpenAiResponsesDecoder × List AiStreamEvent := (d.decode frame).swap

variable (d : OpenAiResponsesDecoder) (model : String)

theorem decodeStream_eq (frames : List Json) :
    d.decodeStream frames =
      (Machine.run step d frames).2 ++ (Machine.run step d frames).1.finish :=
  run_append_finish (fun _ => rfl) (fun _ _ _ => rfl) d frames

variable (frame : Json)

theorem openCall_toolIndices (start : ToolCallStart) (i : ℕ) :
    i ∈ (d.openCall frame start).2.toolIndices ↔ i ∈ d.toolIndices ∨ start.index = i := by
  unfold openCall
  split_ifs with hmem
  · constructor
    · exact .inl
    · rintro (hi | rfl)
      · exact hi
      · exact hmem
  · simp only
    split <;> simp [List.mem_insert_iff, eq_comm, or_comm]

theorem decode_toolIndices (i : ℕ) :
    decide (i ∈ (d.decode frame).2.toolIndices) =
      (decide (i ∈ d.toolIndices) || opensCall i frame) := by
  unfold decode opensCall
  cases responsesFrameKind frame with
  | outputItemAdded =>
    cases itemCall frame with
    | none => exact (Bool.or_false _).symm
    | some start => simp [openCall_toolIndices]
  | argumentsDelta => cases frame.getStr "delta" <;> simp
  | _ => simp

theorem run_toolIndices (frames : List Json) (i : ℕ) :
    decide (i ∈ (Machine.run step ({ model := model } : OpenAiResponsesDecoder)
      frames).1.toolIndices) = frames.any (opensCall i) := by
  rw [run_flag (fun d => decide (i ∈ d.toolIndices)) (opensCall i) fun d f =>
    decode_toolIndices d f i]
  simp

theorem openCall_events (start : ToolCallStart) :
    (∀ e ∈ (d.openCall frame start).1, e.isBody = true) ∧
      (d.openCall frame start).1.isEmpty = decide (start.index ∈ d.toolIndices) := by
  unfold openCall
  split_ifs with hmem
  · simp [hmem]
  · simp only
    split <;> simp [hmem, AiStreamEvent.isBody]

theorem closeCall_events :
    (∀ e ∈ d.closeCall frame, e.isBody = true) ∧
      (d.closeCall frame).isEmpty = !decide (responsesOutputIndex frame ∈ d.toolIndices) := by
  simp only [closeCall]
  split_ifs with hmem hargs
  · simp [hmem, AiStreamEvent.isBody]
  · refine ⟨fun e he => ?_, by simp [hmem]⟩
    rcases List.mem_append.1 he with he | he
    · obtain ⟨args, -, rfl⟩ := List.mem_map.1 he
      rfl
    · rw [List.mem_singleton] at he
      exact he ▸ rfl
  · simp [hmem]

/-- **The events of a frame play its role.** -/
theorem block (before : List Json) (frame : Json) :
    Roles.Block roles eventRoles (before, frame)
      (step (Machine.run step { model := model } before).1 frame).2 := by
  have hindices := run_toolIndices model before
  generalize (Machine.run step ({ model := model } : OpenAiResponsesDecoder) before).1 = d
    at hindices
  rw [step, Prod.snd_swap]
  unfold decode
  cases hkind : responsesFrameKind frame with
  | created =>
    constructor <;> simp [isCreated, isCompleted, carriesContent, carriesBody, hkind,
      AiStreamEvent.isMessageStart, AiStreamEvent.isContent, AiStreamEvent.isBody,
      AiStreamEvent.isEnd]
  | outputTextDelta =>
    cases hdelta : frame.getStr "delta" <;> refine block_of_body ?_ ?_ ?_ ?_ ?_ <;>
      simp [isCreated, isCompleted, carriesContent, carriesBody, hkind, hdelta,
        AiStreamEvent.isBody]
  | reasoningDelta =>
    cases hdelta : frame.getStr "delta" <;> refine block_of_body ?_ ?_ ?_ ?_ ?_ <;>
      simp [isCreated, isCompleted, carriesContent, carriesBody, hkind, hdelta,
        AiStreamEvent.isBody]
  | outputItemAdded =>
    cases hcall : itemCall frame with
    | none =>
      refine block_of_silent ?_ ?_ ?_ ?_ ?_ <;>
        simp [isCreated, isCompleted, carriesContent, carriesBody, hkind, hcall]
    | some start =>
      obtain ⟨hbody, hempty⟩ := openCall_events d frame start
      rw [hindices] at hempty
      refine block_of_body ?_ ?_ ?_ ?_ hbody <;>
        simp [isCreated, isCompleted, carriesContent, carriesBody, hkind, hcall, hempty]
  | argumentsDelta =>
    cases hdelta : frame.getStr "delta" <;> refine block_of_body ?_ ?_ ?_ ?_ ?_ <;>
      simp [isCreated, isCompleted, carriesContent, carriesBody, hkind, hdelta,
        AiStreamEvent.isBody]
  | argumentsDone =>
    obtain ⟨hbody, hempty⟩ := closeCall_events d frame
    rw [hindices] at hempty
    refine block_of_body ?_ ?_ ?_ ?_ hbody <;>
      simp [isCreated, isCompleted, carriesContent, carriesBody, hkind, hempty]
  | completed =>
    constructor <;> simp [isCreated, isCompleted, carriesContent, carriesBody, hkind,
      AiStreamEvent.isMessageStart, AiStreamEvent.isContent, AiStreamEvent.isBody,
      AiStreamEvent.isEnd]
  | failed =>
    refine block_of_silent ?_ ?_ ?_ ?_ ?_ <;>
      simp [isCreated, isCompleted, carriesContent, carriesBody, hkind, AiStreamEvent.isContent,
        AiStreamEvent.isBody, AiStreamEvent.isMessageStart, AiStreamEvent.isEnd]
  | annotationAdded =>
    cases hurl : pointerStr ["annotation", "url"] frame <;> refine .of_quiet ?_ ?_ ?_ ?_ ?_ <;>
      simp [isCreated, isCompleted, carriesContent, carriesBody, hkind, hurl,
        AiStreamEvent.isContent, AiStreamEvent.isBody, AiStreamEvent.isMessageStart,
        AiStreamEvent.isEnd]
  | imageCompleted =>
    cases hdata : ((frame.get "result").or (frame.pointer ["item", "result"])).bind Json.asStr <;>
      refine .of_quiet ?_ ?_ ?_ ?_ ?_ <;>
      simp [isCreated, isCompleted, carriesContent, carriesBody, hkind, hdata,
        AiStreamEvent.isContent, AiStreamEvent.isBody, AiStreamEvent.isMessageStart,
        AiStreamEvent.isEnd]
  | serverTool name status =>
    refine block_of_body ?_ ?_ ?_ ?_ ?_ <;>
      simp [isCreated, isCompleted, carriesContent, carriesBody, hkind, AiStreamEvent.isBody]
  | other =>
    refine block_of_silent ?_ ?_ ?_ ?_ ?_ <;>
      simp [isCreated, isCompleted, carriesContent, carriesBody, hkind]

theorem endsOnce_iff (frames : List Json) :
    EndsOnce (decodeStream { model := model } frames) ↔ roles.Once (timeline [] frames) := by
  have hrun := run_eq_flatMap_timeline step ({ model := model } : OpenAiResponsesDecoder) [] frames
  rw [Machine.run] at hrun
  rw [decodeStream_eq, finish, List.append_nil, hrun, EndsOnce]
  exact Roles.once_flatMap_iff fun p _ => block model p.1 p.2

end OpenAiResponsesDecoder

/-! ### Gemini frames -/

namespace GeminiStreamDecoder

variable (toJsonString : Json → String)

def step (d : GeminiStreamDecoder) (chunk : Json) : GeminiStreamDecoder × List AiStreamEvent :=
  (d.decode toJsonString chunk).swap

/-- The first frame opens, and no frame closes. -/
@[simps] def roles (d : GeminiStreamDecoder) : Roles Placed where
  opens p := p.1.isEmpty
  speaks p := (step toJsonString (Machine.run (step toJsonString) d p.1).1 p.2).2.any
    AiStreamEvent.isContent
  utters p := (step toJsonString (Machine.run (step toJsonString) d p.1).1 p.2).2.any
    AiStreamEvent.isBody
  closes _ := false

variable (d : GeminiStreamDecoder)

theorem decodeStream_eq (chunks : List Json) :
    d.decodeStream toJsonString chunks =
      (Machine.run (step toJsonString) d chunks).2 ++
        (Machine.run (step toJsonString) d chunks).1.finish :=
  run_append_finish (fun _ => rfl) (fun _ _ _ => rfl) d chunks

theorem decodeParts_events (parts : List Json) :
    (∀ e ∈ (d.decodeParts toJsonString parts).1, e.isBody = true) ∧
      (d.decodeParts toJsonString parts).2.started = d.started ∧
      (d.decodeParts toJsonString parts).2.ended = d.ended := by
  induction parts generalizing d with
  | nil => simp [decodeParts]
  | cons part parts ih =>
    unfold decodeParts
    split
    · rename_i text _
      obtain ⟨hbody, hstate⟩ := ih d
      refine ⟨fun e he => ?_, hstate⟩
      rcases List.mem_append.1 he with he | he
      · split_ifs at he
        · simp at he
        · rw [List.mem_singleton] at he
          exact he ▸ rfl
      · exact hbody e he
    · split
      · obtain ⟨hbody, hstate⟩ := ih _
        refine ⟨fun e he => ?_, hstate⟩
        rcases List.mem_append.1 he with he | he
        · simp only [callEvents, List.mem_cons, List.not_mem_nil, or_false] at he
          rcases he with rfl | rfl | rfl <;> rfl
        · exact hbody e he
      · exact ih d

theorem decode_state (chunk : Json) :
    (d.decode toJsonString chunk).2.started = true ∧
      (d.decode toJsonString chunk).2.ended = d.ended := by
  have hnote (d : GeminiStreamDecoder) (candidate : Json) :
      (d.noteFinishReason candidate).started = d.started ∧
        (d.noteFinishReason candidate).ended = d.ended := by
    unfold noteFinishReason
    split <;> exact ⟨rfl, rfl⟩
  unfold decode
  simp only
  split
  · exact ⟨rfl, rfl⟩
  · simp only [hnote]
    exact (decodeParts_events toJsonString _ _).2

theorem run_started (h : d.started = false) (chunks : List Json) :
    (Machine.run (step toJsonString) d chunks).1.started = !chunks.isEmpty := by
  rw [run_flag started (fun _ => true) fun d c => by
    rw [step, Prod.fst_swap, (decode_state toJsonString d c).1, Bool.or_true], h, Bool.false_or]
  cases chunks <;> rfl

theorem run_ended (chunks : List Json) :
    (Machine.run (step toJsonString) d chunks).1.ended = d.ended := by
  rw [run_flag ended (fun _ => false) fun d c => by
    rw [step, Prod.fst_swap, (decode_state toJsonString d c).2, Bool.or_false]]
  simp

/-- A frame says its start, if it is the first, and its parts. -/
theorem decode_says (chunk : Json) :
    ∃ said, (∀ e ∈ said, AiStreamEvent.isBody e = true) ∧
      (d.decode toJsonString chunk).1 =
        (if d.started then []
          else [.messageStart ((chunk.getStr "responseId").getD "")
            ((chunk.getStr "modelVersion").getD d.model)]) ++ said := by
  unfold decode
  simp only
  split
  · exact ⟨[], by simp, by simp⟩
  · exact ⟨_, (decodeParts_events toJsonString _ _).1, rfl⟩

/-- **The events of a frame play its role.** -/
theorem block (h : d.started = false) (before : List Json)
    (chunk : Json) :
    (roles toJsonString d).Block eventRoles (before, chunk)
      (step toJsonString (Machine.run (step toJsonString) d before).1 chunk).2 := by
  have hstarted := run_started toJsonString d h before
  obtain ⟨said, hbody, hsaid⟩ :=
    decode_says toJsonString (Machine.run (step toJsonString) d before).1 chunk
  have hevents : (step toJsonString (Machine.run (step toJsonString) d before).1 chunk).2 =
      (if before.isEmpty then [.messageStart ((chunk.getStr "responseId").getD "")
        ((chunk.getStr "modelVersion").getD
          (Machine.run (step toJsonString) d before).1.model)] else []) ++ said ++ [] := by
    rw [step, Prod.snd_swap, hsaid, hstarted, List.append_nil]
    cases before <;> rfl
  -- the start is not content, so the content of the frame is what it says
  have hsaidAny {p : AiStreamEvent → Bool} (hp : ∀ id model, p (.messageStart id model) = false) :
      said.any p = (step toJsonString (Machine.run (step toJsonString) d before).1 chunk).2.any
        p := by
    rw [hevents]
    cases before <;> simp [hp]
  have hspeaks := hsaidAny (p := AiStreamEvent.isContent) fun _ _ => rfl
  have hutters := hsaidAny (p := AiStreamEvent.isBody) fun _ _ => rfl
  rw [hevents]
  refine .of_parts ?_ rfl hspeaks hutters ?_ (fun e he => ?_) (by simp)
  · cases before <;> rfl
  · intro e he
    split_ifs at he
    · rw [List.mem_singleton] at he
      exact he ▸ ⟨rfl, rfl, rfl, rfl⟩
    · simp at he
  · exact AiStreamEvent.boundary_of_isContent
      (AiStreamEvent.isContent_of_isBody (hbody e he))

theorem endsOnce (model : String) (chunks : List Json) :
    EndsOnce (decodeStream toJsonString { model := model } chunks) := by
  rw [decodeStream_eq]
  have hblock := block toJsonString { model := model } rfl
  refine (endsOnce_machine_iff hblock ?_ fun hopened => ?_).2 ?_
  · intro e he
    rw [finish] at he
    split_ifs at he
    · simp at he
    · simp only [List.mem_cons, List.not_mem_nil, or_false] at he
      rcases he with rfl | rfl <;> exact ⟨rfl, rfl⟩
  · have hne : chunks ≠ [] := by
      rintro rfl
      simp [timeline] at hopened
    have hstarted : (Machine.run (step toJsonString) { model := model } chunks).1.started =
        true := by
      rw [run_started _ _ rfl]
      simpa using hne
    have hended : (Machine.run (step toJsonString) { model := model } chunks).1.ended = false :=
      run_ended toJsonString _ chunks
    simp [finish, hstarted, hended, roles, AiStreamEvent.isEnd]
  · rw [Roles.orderly_timeline_iff fun _ => rfl]
    refine ⟨by simp [roles], List.pairwise_of_forall fun _ _ hcloses => ?_⟩
    simp at hcloses

end GeminiStreamDecoder

/-- **Which frame sequences decode to a stream that ends once.**  A chat stream does when at most
one chunk has a finish reason and no chunk after it has content.  A Messages stream does when its
frames are orderly: at most one `message_start`, no content before it and, if there is one, at
most one `message_stop` and no content after that.  A Responses stream does when moreover a stream
with `response.created` has a `response.completed`.  A Gemini stream always does. -/
theorem decoded_endsOnce_iff (toJsonString : Json → String) (model : String)
    (frames : List Json) :
    (EndsOnce (OpenAiStreamDecoder.decodeStream {} frames) ↔
      frames.countP OpenAiStreamDecoder.carriesFinish ≤ 1 ∧
        (timeline [] frames).Pairwise fun p q =>
          OpenAiStreamDecoder.carriesFinish p.2 = true →
            OpenAiStreamDecoder.carriesContent q.1 q.2 = false) ∧
      (EndsOnce (AnthropicStreamDecoder.decodeStream {} frames) ↔
        AnthropicStreamDecoder.roles.Orderly (timeline [] frames)) ∧
      (EndsOnce (OpenAiResponsesDecoder.decodeStream { model := model } frames) ↔
        OpenAiResponsesDecoder.roles.Once (timeline [] frames)) ∧
      EndsOnce (GeminiStreamDecoder.decodeStream toJsonString { model := model } frames) := by
  have hfinish : (timeline [] frames).countP OpenAiStreamDecoder.roles.closes =
      frames.countP OpenAiStreamDecoder.carriesFinish := by
    conv_rhs => rw [← map_snd_timeline [] frames, List.countP_map]
    rfl
  refine ⟨?_, AnthropicStreamDecoder.endsOnce_iff frames,
    OpenAiResponsesDecoder.endsOnce_iff model frames,
    GeminiStreamDecoder.endsOnce toJsonString model frames⟩
  rw [OpenAiStreamDecoder.endsOnce_iff, Roles.orderly_timeline_iff fun _ => rfl, hfinish]
  rfl

/-- A chunk that ends the message. -/
def finishChunk : Json := .obj [("choices", .arr [.obj [("finish_reason", .str "stop")]])]

/-- A Responses stream that is cut off has no end, and a chat stream that repeats its finish reason
has two. -/
theorem cut_off_and_repeated_ends :
    ¬ EndsOnce (OpenAiResponsesDecoder.decodeStream { model := "m" }
      [.obj [("type", .str "response.created")],
        .obj [("type", .str "response.output_text.delta"), ("delta", .str "a")]]) ∧
    ¬ EndsOnce (OpenAiStreamDecoder.decodeStream {} [finishChunk, finishChunk]) := by
  constructor
  · intro h
    have hclosed := h.closes ⟨.messageStart "resp" "m", by decide +kernel, rfl⟩
    revert hclosed
    decide +kernel
  · intro h
    have honce := h.closes_once ⟨.messageStart "" "", by decide +kernel, rfl⟩
    revert honce
    decide +kernel

end Switchback
