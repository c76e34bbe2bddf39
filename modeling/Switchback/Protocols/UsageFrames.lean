import Switchback.Protocols.Surfaces
import Switchback.Runtime.Meter

/-!
# The usage a client is told

Chunks become canonical events, which are metered and encoded again.  The encoders report the
usage in force when the message ends; the meter records the one in force when the stream ends.
-/

namespace Switchback

open Lib Metering

/-! ### Ends of the message -/

/-- The usage in force at each end of the message. -/
def endUsages (usage : Usage) : List AiStreamEvent → List Usage
  | [] => []
  | event :: events =>
      (if event.isEnd then [usage] else []) ++ endUsages (noteUsage usage event) events

theorem endUsages_append (usage : Usage) (a b : List AiStreamEvent) :
    endUsages usage (a ++ b) = endUsages usage a ++ endUsages (a.foldl noteUsage usage) b := by
  induction a generalizing usage with
  | nil => rfl
  | cons event a ih => rw [List.cons_append, endUsages, endUsages, ih, List.append_assoc]; rfl

/-- Events that neither report usage nor end the message. -/
def Neutral (events : List AiStreamEvent) : Prop :=
  ∀ event ∈ events, event.isEnd = false ∧ ∀ usage, noteUsage usage event = usage

theorem Neutral.append {a b : List AiStreamEvent} (ha : Neutral a) (hb : Neutral b) :
    Neutral (a ++ b) := List.forall_mem_append.mpr ⟨ha, hb⟩

theorem Neutral.foldl_noteUsage {events : List AiStreamEvent} (h : Neutral events)
    (usage : Usage) : events.foldl noteUsage usage = usage := by
  induction events with
  | nil => rfl
  | cons event events ih =>
    obtain ⟨hevent, hevents⟩ := List.forall_mem_cons.mp h
    rw [List.foldl_cons, hevent.2, ih hevents]

theorem Neutral.endUsages_eq {events : List AiStreamEvent} (h : Neutral events)
    (usage : Usage) : endUsages usage events = [] := by
  induction events with
  | nil => rfl
  | cons event events ih =>
    obtain ⟨hevent, hevents⟩ := List.forall_mem_cons.mp h
    rw [endUsages, hevent.1, hevent.2, ih hevents]
    rfl

/-! ### Chunks -/

/-- The chunk ends the message. -/
def finishes (chunk : Json) : Bool := ((chunkChoice chunk).bind ChunkChoice.finish).isSome

def hasUsage (chunk : Json) : Bool :=
  ((chunk.get "usage").filter fun usage => usage.asObject.isSome).isSome

def hasEnergy (chunk : Json) : Bool := (openAiUsage chunk).energy.isSome

/-- The usage in force after a chunk. -/
def chunkUsage (usage : Usage) (chunk : Json) : Usage :=
  if hasUsage chunk || hasEnergy chunk then openAiUsage chunk else usage

/-- The usage in force at each chunk that ends the message. -/
def finishUsages (usage : Usage) : List Json → List Usage
  | [] => []
  | chunk :: chunks =>
      (if finishes chunk then [chunkUsage usage chunk] else []) ++
        finishUsages (chunkUsage usage chunk) chunks

theorem finishUsages_append (usage : Usage) (a b : List Json) :
    finishUsages usage (a ++ b) =
      finishUsages usage a ++ finishUsages (a.foldl chunkUsage usage) b := by
  induction a generalizing usage with
  | nil => rfl
  | cons chunk a ih => rw [List.cons_append, finishUsages, finishUsages, ih, List.append_assoc]; rfl

theorem foldl_usageEvents (usage : Usage) (chunk : Json) :
    (OpenAiStreamDecoder.usageEvents chunk).foldl noteUsage usage = chunkUsage usage chunk := by
  unfold OpenAiStreamDecoder.usageEvents chunkUsage hasUsage hasEnergy
  dsimp only
  split <;> rfl

theorem endUsages_usageEvents (usage : Usage) (chunk : Json) :
    endUsages usage (OpenAiStreamDecoder.usageEvents chunk) = [] := by
  unfold OpenAiStreamDecoder.usageEvents
  dsimp only
  split <;> rfl

theorem neutral_start (d : OpenAiStreamDecoder) (id model : String) :
    Neutral (if d.started then [] else [.messageStart id model]) := by
  split
  · simp [Neutral]
  · simp [Neutral, AiStreamEvent.isEnd, noteUsage]

theorem neutral_text (content : String) :
    Neutral (if content = "" then [] else [.textDelta content]) := by
  split
  · simp [Neutral]
  · simp [Neutral, AiStreamEvent.isEnd, noteUsage]

theorem neutral_fragmentEvents (seen : List ℕ) (f : ToolCallFragment) :
    Neutral (OpenAiStreamDecoder.fragmentEvents seen f) := by
  unfold OpenAiStreamDecoder.fragmentEvents
  refine Neutral.append ?_ ?_
  · split
    · simp [Neutral]
    · simp [Neutral, AiStreamEvent.isEnd, noteUsage]
  · cases f.arguments with
    | none => simp [Neutral]
    | some arguments => simp [Neutral, AiStreamEvent.isEnd, noteUsage]

theorem neutral_toolCallEvents (seen : List ℕ) (fragments : List ToolCallFragment) :
    Neutral (OpenAiStreamDecoder.toolCallEvents seen fragments).1 := by
  induction fragments generalizing seen with
  | nil => simp [Neutral, OpenAiStreamDecoder.toolCallEvents]
  | cons f fragments ih => exact (neutral_fragmentEvents seen f).append (ih _)

namespace OpenAiStreamDecoder

variable (d : OpenAiStreamDecoder) (chunk : Json) (usage : Usage)

theorem decode_shape : ∃ before after, Neutral before ∧ Neutral after ∧
    (d.decode chunk).1 = before ++ usageEvents chunk ++ after ++
      ((chunkChoice chunk).bind ChunkChoice.finish).toList.map AiStreamEvent.messageEnd := by
  have hstart := neutral_start d ((chunk.getStr "id").getD "") ((chunk.getStr "model").getD "")
  unfold decode
  dsimp only
  cases hchoice : chunkChoice chunk with
  | none => exact ⟨_, [], hstart, by simp [Neutral], by simp⟩
  | some choice =>
    have hbody := (neutral_text choice.content).append
      (neutral_toolCallEvents d.seenToolCalls choice.toolCalls)
    refine ⟨_, _, hstart, hbody, ?_⟩
    cases hfinish : choice.finish with
    | none => simp [hfinish]
    | some finish => simp [hfinish]

theorem foldl_decode : (d.decode chunk).1.foldl noteUsage usage = chunkUsage usage chunk := by
  obtain ⟨before, after, hbefore, hafter, h⟩ := d.decode_shape chunk
  rw [h, List.foldl_append, List.foldl_append, List.foldl_append, hbefore.foldl_noteUsage,
    foldl_usageEvents, hafter.foldl_noteUsage]
  cases (chunkChoice chunk).bind ChunkChoice.finish <;> rfl

theorem endUsages_decode :
    endUsages usage (d.decode chunk).1 =
      if finishes chunk then [chunkUsage usage chunk] else [] := by
  obtain ⟨before, after, hbefore, hafter, h⟩ := d.decode_shape chunk
  rw [h, endUsages_append, endUsages_append, endUsages_append, hbefore.endUsages_eq,
    endUsages_usageEvents, hafter.endUsages_eq, List.foldl_append, hafter.foldl_noteUsage,
    List.foldl_append, hbefore.foldl_noteUsage, foldl_usageEvents, finishes]
  cases (chunkChoice chunk).bind ChunkChoice.finish <;> rfl

theorem started_decode : (d.decode chunk).2.started = true := by
  unfold decode
  dsimp only
  cases chunkChoice chunk <;> rfl

theorem ended_decode : (d.decode chunk).2.ended = (d.ended || finishes chunk) := by
  unfold decode finishes
  dsimp only
  cases chunkChoice chunk with
  | none => simp
  | some choice => rfl

theorem foldl_decodeStream (chunks : List Json) :
    (d.decodeStream chunks).foldl noteUsage usage = chunks.foldl chunkUsage usage := by
  induction chunks generalizing d usage with
  | nil =>
    unfold decodeStream finish
    split <;> rfl
  | cons chunk chunks ih => rw [decodeStream, List.foldl_append, foldl_decode, ih]; rfl

theorem endUsages_decodeStream (chunks : List Json) :
    endUsages usage (d.decodeStream chunks) = finishUsages usage chunks ++
      if (d.started || !chunks.isEmpty) && !(d.ended || chunks.any finishes) then
        [chunks.foldl chunkUsage usage]
      else [] := by
  induction chunks generalizing d usage with
  | nil =>
    unfold decodeStream finish
    simp only [List.isEmpty_nil, Bool.not_true, Bool.or_false, List.any_nil, finishUsages,
      List.nil_append, List.foldl_nil]
    split <;> rfl
  | cons chunk chunks ih =>
    rw [decodeStream, endUsages_append, foldl_decode, endUsages_decode, ih, started_decode,
      ended_decode, finishUsages, List.append_assoc]
    simp [Bool.or_assoc]

end OpenAiStreamDecoder

/-! ### The terminal frames of a Messages client -/

/-- The `output_tokens` of each `message_delta` frame. -/
def deltaOutputs (frames : List SseFrame) : List (Option Json) :=
  (frames.filter fun f => f.event = "message_delta").map fun f =>
    f.data.pointer ["usage", "output_tokens"]

@[simp] theorem deltaOutputs_append (a b : List SseFrame) :
    deltaOutputs (a ++ b) = deltaOutputs a ++ deltaOutputs b := by
  unfold deltaOutputs
  rw [List.filter_append, List.map_append]

theorem deltaOutputs_eq_nil {frames : List SseFrame}
    (h : ∀ f ∈ frames, f.event ≠ "message_delta") : deltaOutputs frames = [] := by
  unfold deltaOutputs
  rw [List.filter_eq_nil_iff.mpr (by simpa using h), List.map_nil]

namespace AnthropicStreamEncoder

variable (e : AnthropicStreamEncoder)

@[simp] theorem deltaOutputs_ensureStarted : deltaOutputs e.ensureStarted.1 = [] := by
  unfold ensureStarted
  split
  · rfl
  · exact deltaOutputs_eq_nil (by simp [messageStart])

@[simp] theorem deltaOutputs_closeBlock : deltaOutputs e.closeBlock.1 = [] := by
  unfold closeBlock
  split
  · rfl
  · exact deltaOutputs_eq_nil (by simp [contentBlockStop])

@[simp] theorem deltaOutputs_contentBlockDelta (index : ℕ) (delta : Json) :
    deltaOutputs [contentBlockDelta index delta] = [] :=
  deltaOutputs_eq_nil (by simp [contentBlockDelta])

@[simp] theorem deltaOutputs_startBlock (kind : ℕ → OpenBlock) (block : Json) :
    deltaOutputs (e.startBlock kind block).1 = [] := by
  unfold startBlock
  dsimp only
  rw [deltaOutputs_append, deltaOutputs_closeBlock, List.nil_append]
  exact deltaOutputs_eq_nil (by simp [contentBlockStart])

theorem deltaOutputs_messageDelta (finish : FinishReason) (usage : Usage) :
    deltaOutputs [messageDelta finish usage, messageStop] =
      [some (Json.ofNat usage.outputTokens)] := by
  have husage : (messageDelta finish usage).data.get "usage" =
      some (Json.mkObj [("output_tokens", Json.ofNat usage.outputTokens)]) := by
    unfold messageDelta
    rw [Json.get_mkObj (by simp)]
    rfl
  have hpointer : (messageDelta finish usage).data.pointer ["usage", "output_tokens"] =
      some (Json.ofNat usage.outputTokens) := by
    show ((some (messageDelta finish usage).data).bind (Json.get "usage")).bind
      (Json.get "output_tokens") = _
    rw [Option.bind_some, husage]
    rfl
  unfold deltaOutputs
  rw [List.filter_cons_of_pos (by simp [messageDelta]),
    List.filter_cons_of_neg (by simp [messageStop]), List.filter_nil, List.map_singleton, hpointer]

/-- What an operation on the block leaves of the report: no frame of it, the usage and the flag. -/
structure Silent (r : List SseFrame × AnthropicStreamEncoder) : Prop where
  frames : deltaOutputs r.1 = []
  usage : r.2.usage = e.usage
  ended : r.2.ended = e.ended

theorem silent_ensureStarted : Silent e e.ensureStarted := by
  refine ⟨e.deltaOutputs_ensureStarted, ?_, ?_⟩ <;> unfold ensureStarted <;> split <;> rfl

theorem silent_closeBlock : Silent e e.closeBlock := by
  refine ⟨e.deltaOutputs_closeBlock, ?_, ?_⟩ <;> unfold closeBlock <;> split <;> rfl

theorem silent_startBlock (kind : ℕ → OpenBlock) (block : Json) :
    Silent e (e.startBlock kind block) :=
  ⟨e.deltaOutputs_startBlock kind block, e.silent_closeBlock.usage, e.silent_closeBlock.ended⟩

theorem silent_encodeText (text : String) : Silent e (e.encodeText text) := by
  unfold encodeText
  dsimp only
  split
  · refine ⟨?_, rfl, rfl⟩
    rw [deltaOutputs_append, deltaOutputs_contentBlockDelta]
    rfl
  · have hopen := e.silent_startBlock .text textBlock
    refine ⟨?_, hopen.usage, hopen.ended⟩
    rw [deltaOutputs_append, deltaOutputs_contentBlockDelta, List.append_nil]
    exact hopen.frames

theorem silent_encodeReasoning (text : String) : Silent e (e.encodeReasoning text) := by
  unfold encodeReasoning
  dsimp only
  split
  · refine ⟨?_, rfl, rfl⟩
    rw [deltaOutputs_append, deltaOutputs_contentBlockDelta]
    rfl
  · have hopen := e.silent_startBlock .reasoning thinkingBlock
    refine ⟨?_, hopen.usage, hopen.ended⟩
    rw [deltaOutputs_append, deltaOutputs_contentBlockDelta, List.append_nil]
    exact hopen.frames

theorem silent_started {f : AnthropicStreamEncoder → List SseFrame × AnthropicStreamEncoder}
    (hf : ∀ e, Silent e (f e)) : Silent e (e.started f) := by
  have hstart := e.silent_ensureStarted
  have h := hf e.ensureStarted.2
  refine ⟨?_, h.usage.trans hstart.usage, h.ended.trans hstart.ended⟩
  show deltaOutputs (e.ensureStarted.1 ++ (f e.ensureStarted.2).1) = []
  rw [deltaOutputs_append, hstart.frames, h.frames]
  rfl

/-- Before the end an event reports usage exactly when it ends the message. -/
theorem encode_report (h : e.ended = false) (event : AiStreamEvent) :
    deltaOutputs (e.encode event).1 =
        (if event.isEnd then [some (Json.ofNat e.usage.outputTokens)] else []) ∧
      (e.encode event).2.usage = noteUsage e.usage event ∧
      (e.encode event).2.ended = event.isEnd := by
  have hsilent : ∀ {r : List SseFrame × AnthropicStreamEncoder}, Silent e r →
      deltaOutputs r.1 = [] ∧ r.2.usage = e.usage ∧ r.2.ended = false :=
    fun hr => ⟨hr.frames, hr.usage, hr.ended.trans h⟩
  have hlive : ¬ e.ended = true := by simp [h]
  unfold encode
  rw [if_neg hlive]
  cases event with
  | messageStart id model =>
    have hs := silent_ensureStarted { e with
      id := if e.id = "" then id else e.id
      model := if e.model = "" then model else e.model }
    exact ⟨hs.frames, hs.usage, hs.ended.trans h⟩
  | textDelta text =>
    dsimp only
    split
    · exact ⟨rfl, rfl, h⟩
    · exact hsilent (e.silent_started fun e => e.silent_encodeText text)
  | reasoningDelta text => exact hsilent (e.silent_started fun e => e.silent_encodeReasoning text)
  | toolCallStart tool =>
    refine hsilent (e.silent_started fun e => ?_)
    have hs := e.silent_startBlock .tool (toolUseBlock tool.id tool.name)
    exact ⟨hs.frames, hs.usage, hs.ended⟩
  | toolCallArgsDelta index json =>
    exact hsilent (e.silent_started fun e => ⟨by simp, rfl, rfl⟩)
  | toolCallEnd index =>
    dsimp only
    split
    · split
      · exact hsilent e.silent_closeBlock
      · exact ⟨rfl, rfl, h⟩
    · exact ⟨rfl, rfl, h⟩
  | usageDelta usage => exact ⟨rfl, rfl, h⟩
  | messageEnd finish =>
    have hs := e.silent_ensureStarted
    have hc := e.ensureStarted.2.silent_closeBlock
    refine ⟨?_, hc.usage.trans hs.usage, rfl⟩
    show deltaOutputs (e.ensureStarted.1 ++ (e.ensureStarted.2.closeBlock.1 ++
      [messageDelta finish e.ensureStarted.2.closeBlock.2.usage, messageStop])) = _
    rw [deltaOutputs_append, deltaOutputs_append, hs.frames, hc.frames, deltaOutputs_messageDelta,
      hc.usage, hs.usage]
    rfl
  | outputImage _ _ => exact ⟨rfl, rfl, h⟩
  | citation _ _ => exact ⟨rfl, rfl, h⟩
  | serverToolCall _ _ _ => exact ⟨rfl, rfl, h⟩
  | error _ _ => exact ⟨rfl, rfl, h⟩

theorem encodeStream_of_ended (h : e.ended = true) (events : List AiStreamEvent) :
    e.encodeStream events = [] := by
  have hstep : ∀ event, e.encode event = ([], e) := fun event => if_pos h
  induction events with
  | nil => rfl
  | cons event events ih => rw [encodeStream, hstep, ih]; rfl

theorem deltaOutputs_encodeStream (h : e.ended = false) (events : List AiStreamEvent) :
    deltaOutputs (e.encodeStream events) =
      ((endUsages e.usage events).take 1).map fun usage =>
        some (Json.ofNat usage.outputTokens) := by
  induction events generalizing e with
  | nil => rfl
  | cons event events ih =>
    obtain ⟨hframes, husage, hended⟩ := e.encode_report h event
    rw [encodeStream, deltaOutputs_append, hframes, endUsages]
    cases hend : event.isEnd with
    | true =>
      rw [hend] at hended
      rw [encodeStream_of_ended _ hended]
      rfl
    | false =>
      rw [hend] at hended
      rw [ih _ hended, husage]
      rfl

end AnthropicStreamEncoder

/-! ### The terminal frames of a Responses client -/

/-- The `input_tokens` and `output_tokens` of each `response.completed` frame. -/
def completedUsages (frames : List SseFrame) : List (Option Json × Option Json) :=
  (frames.filter fun f => f.event = "response.completed").map fun f =>
    (f.data.pointer ["response", "usage", "input_tokens"],
      f.data.pointer ["response", "usage", "output_tokens"])

theorem completedUsages_append (a b : List SseFrame) :
    completedUsages (a ++ b) = completedUsages a ++ completedUsages b := by
  unfold completedUsages
  rw [List.filter_append, List.map_append]

theorem completedUsages_eq_nil {frames : List SseFrame}
    (h : ∀ f ∈ frames, f.event ≠ "response.completed") : completedUsages frames = [] := by
  unfold completedUsages
  rw [List.filter_eq_nil_iff.mpr (by simpa using h), List.map_nil]

namespace OpenAiResponsesStreamEncoder

variable (newId : String → ℕ → String) (e : OpenAiResponsesStreamEncoder)

theorem get_usageJson (usage : Usage) :
    (responsesUsageJson usage).get "input_tokens" = some (Json.ofNat usage.inputTokens) ∧
      (responsesUsageJson usage).get "output_tokens" = some (Json.ofNat usage.outputTokens) := by
  unfold responsesUsageJson
  rw [Json.get_mkObj (by cases usage.energy <;> simp), Json.get_mkObj (by
    cases usage.energy <;> simp)]
  exact ⟨rfl, rfl⟩

theorem completedUsages_completed (output : List Json) :
    completedUsages [e.completed output] =
      [(some (Json.ofNat e.usage.inputTokens), some (Json.ofNat e.usage.outputTokens))] := by
  have husage : ((e.completed output).data.get "response").bind (Json.get "usage") =
      some (responsesUsageJson e.usage) := by
    rw [get_response_completed, Option.bind_some, get_finalObject]
    rfl
  have hpointer : ∀ key, (e.completed output).data.pointer ["response", "usage", key] =
      (responsesUsageJson e.usage).get key := by
    intro key
    show (((some (e.completed output).data).bind (Json.get "response")).bind
      (Json.get "usage")).bind (Json.get key) = _
    rw [Option.bind_some, husage, Option.bind_some]
  unfold completedUsages
  rw [List.filter_cons_of_pos (by simp [completed, frame]), List.filter_nil, List.map_singleton,
    hpointer, hpointer, (get_usageJson e.usage).1, (get_usageJson e.usage).2]

/-- What an operation leaves of the report: no terminal frame, and the usage. -/
structure Silent (r : List SseFrame × OpenAiResponsesStreamEncoder) : Prop where
  frames : ∀ f ∈ r.1, f.event ≠ "response.completed"
  usage : r.2.usage = e.usage

theorem silent_closeReasoning : Silent e e.closeReasoning := by
  unfold closeReasoning
  split
  · exact ⟨by simp, rfl⟩
  · exact ⟨by simp [frame, itemFrame], rfl⟩

theorem silent_closeText : Silent e (e.closeText.1, e.closeText.2.2) := by
  unfold closeText
  split
  · exact ⟨by simp [frame, itemFrame], rfl⟩
  · exact ⟨by simp, rfl⟩

theorem silent_openText : Silent e e.openText := by
  unfold openText
  split
  · exact ⟨by simp, rfl⟩
  · exact ⟨by simp [frame, itemFrame], rfl⟩

theorem silent_openReasoning : Silent e e.openReasoning := by
  unfold openReasoning
  split
  · exact ⟨by simp, rfl⟩
  · exact ⟨by simp [frame, itemFrame], rfl⟩

theorem toolItems_ne_completed (outputIndex drawn : ℕ) (calls : List OutputCall) :
    ∀ f ∈ (toolItems newId outputIndex drawn calls).1, f.event ≠ "response.completed" := by
  induction calls generalizing outputIndex drawn with
  | nil => simp [toolItems]
  | cons call calls ih =>
    rw [toolItems, List.forall_mem_cons, List.forall_mem_cons]
    exact ⟨by simp [frame, itemFrame], by simp [frame, itemFrame], ih _ _⟩

theorem serverToolCall_ne_completed (name status : String) :
    s!"response.{name}_call.{status}" ≠ "response.completed" := by
  intro h
  have hmem : '_' ∈ (s!"response.{name}_call.{status}").toList := by
    rw [String.toList_append, List.mem_append, String.toList_append, List.mem_append]
    exact .inl (.inr (by decide))
  rw [h] at hmem
  revert hmem
  decide

/-- An event that does not end the message has no terminal frame. -/
theorem silent_encode {event : AiStreamEvent} (h : event.isEnd = false) :
    Silent { e with usage := noteUsage e.usage event } (e.encode newId event) := by
  cases event with
  | messageStart id model => exact ⟨by simp [encode, created, frame], rfl⟩
  | serverToolCall id name status =>
    refine ⟨?_, rfl⟩
    rw [encode, List.forall_mem_singleton]
    exact serverToolCall_ne_completed name status
  | outputImage mediaType data =>
    have hr := e.silent_closeReasoning
    refine ⟨?_, hr.usage⟩
    unfold encode
    dsimp only
    rw [List.forall_mem_append]
    exact ⟨hr.frames, by simp [frame, itemFrame]⟩
  | citation url title => exact ⟨by simp [encode, frame], rfl⟩
  | textDelta text =>
    have hr := e.silent_closeReasoning
    have ho := e.closeReasoning.2.silent_openText
    refine ⟨?_, ho.usage.trans hr.usage⟩
    unfold encode
    dsimp only
    rw [List.forall_mem_append, List.forall_mem_append]
    exact ⟨⟨hr.frames, ho.frames⟩, by simp [frame]⟩
  | toolCallStart start => exact ⟨by simp [encode], rfl⟩
  | toolCallArgsDelta index json => exact ⟨by simp [encode], rfl⟩
  | toolCallEnd index => exact ⟨by simp [encode], rfl⟩
  | usageDelta usage => exact ⟨by simp [encode], rfl⟩
  | messageEnd reason => cases h
  | error message errorClass => exact ⟨by simp [encode, frame], rfl⟩
  | reasoningDelta text =>
    have ho := e.silent_openReasoning
    refine ⟨?_, ho.usage⟩
    unfold encode
    dsimp only
    rw [List.forall_mem_append]
    exact ⟨ho.frames, by simp [frame]⟩

theorem finish_report :
    completedUsages (e.finish newId).1 =
        [(some (Json.ofNat e.usage.inputTokens), some (Json.ofNat e.usage.outputTokens))] ∧
      (e.finish newId).2.usage = e.usage := by
  have hr := e.silent_closeReasoning
  have ht := e.closeReasoning.2.silent_closeText
  have husage := ht.usage.trans hr.usage
  refine ⟨?_, husage⟩
  unfold finish
  dsimp only
  rw [completedUsages_append, completedUsages_append, completedUsages_append,
    completedUsages_eq_nil hr.frames, completedUsages_eq_nil ht.frames,
    completedUsages_eq_nil (toolItems_ne_completed newId _ _ _), completedUsages_completed]
  simp only [List.nil_append, takeTool]
  rw [husage]

theorem encode_report (event : AiStreamEvent) :
    completedUsages (e.encode newId event).1 =
        (if event.isEnd then
          [(some (Json.ofNat e.usage.inputTokens), some (Json.ofNat e.usage.outputTokens))]
        else []) ∧
      (e.encode newId event).2.usage = noteUsage e.usage event := by
  cases hend : event.isEnd with
  | false =>
    have hsilent := e.silent_encode newId hend
    exact ⟨completedUsages_eq_nil hsilent.frames, hsilent.usage⟩
  | true =>
    cases event with
    | messageEnd reason => exact finish_report newId { e with status := finishStr reason }
    | _ => cases hend

theorem completedUsages_encodeStream (events : List AiStreamEvent) :
    completedUsages (e.encodeStream newId events) =
      (endUsages e.usage events).map fun usage =>
        (some (Json.ofNat usage.inputTokens), some (Json.ofNat usage.outputTokens)) := by
  induction events generalizing e with
  | nil => rfl
  | cons event events ih =>
    obtain ⟨hframes, husage⟩ := e.encode_report newId event
    rw [encodeStream, completedUsages_append, hframes, ih, husage, endUsages, List.map_append]
    cases event.isEnd <;> rfl

end OpenAiResponsesStreamEncoder

/-! ### One usage object -/

/-- The two counts of a usage. -/
def Usage.counts (usage : Usage) : ℕ × ℕ := (usage.inputTokens, usage.outputTokens)

/-- The prompt and completion tokens of a chunk's usage object. -/
def upstreamCounts (chunk : Json) : ℕ × ℕ :=
  ((((chunk.get "usage").bind (Json.getU64 "prompt_tokens")).getD 0),
    (((chunk.get "usage").bind (Json.getU64 "completion_tokens")).getD 0))

theorem counts_openAiUsage {chunk : Json} (h : hasUsage chunk = true) :
    (openAiUsage chunk).counts = upstreamCounts chunk := by
  unfold hasUsage at h
  cases hu : chunk.get "usage" with
  | none => simp [hu] at h
  | some usage =>
    rw [hu] at h
    have hfilter : (some usage).filter (fun usage => usage.asObject.isSome) = some usage := by
      cases hobj : usage.asObject.isSome <;> simp [hobj] at h ⊢
    simp only [Usage.counts, openAiUsage, upstreamCounts, hu, hfilter]

theorem counts_openAiUsage_of_not {chunk : Json} (h : hasUsage chunk = false) :
    (openAiUsage chunk).counts = (0, 0) := by
  unfold hasUsage at h
  rw [Option.isSome_eq_false_iff, Option.isNone_iff_eq_none] at h
  simp only [Usage.counts, openAiUsage, h, Option.bind_none, Option.getD_none]

theorem chunkUsage_of_quiet {chunk : Json} (hu : hasUsage chunk = false)
    (he : hasEnergy chunk = false) (usage : Usage) : chunkUsage usage chunk = usage := by
  unfold chunkUsage
  rw [hu, he]
  rfl

theorem counts_chunkUsage_of_energy {chunk : Json} (hu : hasUsage chunk = false)
    (he : hasEnergy chunk = true) (usage : Usage) : (chunkUsage usage chunk).counts = (0, 0) := by
  unfold chunkUsage
  rw [he, Bool.or_true, if_pos rfl]
  exact counts_openAiUsage_of_not hu

variable {chunks : List Json}

theorem quiet_run (hu : ∀ c ∈ chunks, hasUsage c = false)
    (he : ∀ c ∈ chunks, hasEnergy c = false) (usage : Usage) :
    chunks.foldl chunkUsage usage = usage ∧ ∀ u ∈ finishUsages usage chunks, u = usage := by
  induction chunks with
  | nil => exact ⟨rfl, by simp [finishUsages]⟩
  | cons chunk chunks ih =>
    obtain ⟨hu1, hu⟩ := List.forall_mem_cons.mp hu
    obtain ⟨he1, he⟩ := List.forall_mem_cons.mp he
    obtain ⟨hfold, hall⟩ := ih hu he
    rw [List.foldl_cons, finishUsages, chunkUsage_of_quiet hu1 he1]
    refine ⟨hfold, List.forall_mem_append.mpr ⟨?_, hall⟩⟩
    split <;> simp

/-- Without a usage object the counts stay zero. -/
theorem zero_run (hu : ∀ c ∈ chunks, hasUsage c = false) {usage : Usage}
    (hzero : usage.counts = (0, 0)) :
    (chunks.foldl chunkUsage usage).counts = (0, 0) ∧
      ∀ u ∈ finishUsages usage chunks, u.counts = (0, 0) := by
  induction chunks generalizing usage with
  | nil => exact ⟨hzero, by simp [finishUsages]⟩
  | cons chunk chunks ih =>
    obtain ⟨hu1, hu⟩ := List.forall_mem_cons.mp hu
    have hstep : (chunkUsage usage chunk).counts = (0, 0) := by
      cases he : hasEnergy chunk with
      | true => exact counts_chunkUsage_of_energy hu1 he usage
      | false => rw [chunkUsage_of_quiet hu1 he, hzero]
    obtain ⟨hfold, hall⟩ := ih hu hstep
    refine ⟨hfold, ?_⟩
    rw [finishUsages]
    refine List.forall_mem_append.mpr ⟨?_, hall⟩
    split <;> simp [hstep]

theorem zero_of_energy (hu : ∀ c ∈ chunks, hasUsage c = false)
    (he : ∃ c ∈ chunks, hasEnergy c = true) (usage : Usage) :
    (chunks.foldl chunkUsage usage).counts = (0, 0) := by
  obtain ⟨c, hc, hec⟩ := he
  obtain ⟨before, after, rfl⟩ := List.append_of_mem hc
  rw [List.foldl_append, List.foldl_cons]
  have hafter : ∀ c ∈ after, hasUsage c = false := fun c hc => hu c (by simp [hc])
  exact (zero_run hafter (counts_chunkUsage_of_energy (hu c (by simp)) hec _)).1

theorem finishUsages_ne_nil {c : Json} (hc : c ∈ chunks)
    (hf : finishes c = true) (usage : Usage) : finishUsages usage chunks ≠ [] := by
  obtain ⟨before, after, rfl⟩ := List.append_of_mem hc
  rw [finishUsages_append, finishUsages, hf]
  simp

theorem finishUsages_eq_nil (h : ∀ c ∈ chunks, finishes c = false)
    (usage : Usage) : finishUsages usage chunks = [] := by
  induction chunks generalizing usage with
  | nil => rfl
  | cons c chunks ih =>
    obtain ⟨hc, hchunks⟩ := List.forall_mem_cons.mp h
    rw [finishUsages, hc, ih hchunks]
    rfl

/-! ### What is reported -/

/-- There is a terminal Messages frame, and every one has the completion tokens. -/
def MessagesReport (frames : List SseFrame) (counts : ℕ × ℕ) : Prop :=
  deltaOutputs frames ≠ [] ∧ ∀ output ∈ deltaOutputs frames, output = some (Json.ofNat counts.2)

/-- There is a terminal Responses frame, and every one has both counts. -/
def ResponsesReport (frames : List SseFrame) (counts : ℕ × ℕ) : Prop :=
  completedUsages frames ≠ [] ∧
    ∀ usage ∈ completedUsages frames,
      usage = (some (Json.ofNat counts.1), some (Json.ofNat counts.2))

/-- The drained stream is metered once, with the counts. -/
def MeterReport (events : List AiStreamEvent) (counts : ℕ × ℕ) : Prop :=
  ∃ finished, meterStream {} false (events.map .ok) = [finished] ∧ finished.usage.counts = counts

theorem ofNat_injective : Function.Injective Json.ofNat := by
  intro m n h
  simpa [Json.ofNat] using h

theorem messagesReport_iff (id model : String) (events : List AiStreamEvent) (counts : ℕ × ℕ) :
    MessagesReport (({ id := id, model := model } : AnthropicStreamEncoder).encodeStream events)
        counts ↔
      endUsages {} events ≠ [] ∧
        ∀ usage ∈ (endUsages {} events).take 1, usage.outputTokens = counts.2 := by
  unfold MessagesReport
  rw [AnthropicStreamEncoder.deltaOutputs_encodeStream _ rfl, List.forall_mem_map]
  simp [ofNat_injective.eq_iff]

theorem responsesReport_iff (newId : String → ℕ → String) (id model : String)
    (events : List AiStreamEvent) (counts : ℕ × ℕ) :
    ResponsesReport ((OpenAiResponsesStreamEncoder.new newId id model).encodeStream newId events)
        counts ↔
      endUsages {} events ≠ [] ∧ ∀ usage ∈ endUsages {} events, usage.counts = counts := by
  unfold ResponsesReport
  rw [OpenAiResponsesStreamEncoder.completedUsages_encodeStream, List.forall_mem_map]
  simp [ofNat_injective.eq_iff, OpenAiResponsesStreamEncoder.new, Usage.counts, Prod.ext_iff]

theorem meterReport_iff (chunks : List Json) (counts : ℕ × ℕ) :
    MeterReport (streamEvents chunks) counts ↔
      (chunks.foldl chunkUsage {}).counts = counts := by
  unfold MeterReport streamEvents
  rw [meterStream_clean rfl (isError_decodeStream chunks)]
  constructor
  · rintro ⟨finished, hfinished, hcounts⟩
    obtain rfl := List.singleton_injective hfinished
    rw [← hcounts]
    exact congrArg Usage.counts (OpenAiStreamDecoder.foldl_decodeStream _ _ chunks).symm
  · intro h
    refine ⟨_, rfl, ?_⟩
    rw [← h]
    exact congrArg Usage.counts (OpenAiStreamDecoder.foldl_decodeStream _ _ chunks)

theorem endUsages_streamEvents (h : chunks ≠ []) :
    endUsages {} (streamEvents chunks) = finishUsages {} chunks ++
      if chunks.any finishes then [] else [chunks.foldl chunkUsage {}] := by
  have hne : chunks.isEmpty = false := by simp [h]
  unfold streamEvents
  rw [OpenAiStreamDecoder.endUsages_decodeStream, hne]
  cases chunks.any finishes <;> rfl

theorem endUsages_streamEvents_ne_nil (h : chunks ≠ []) :
    endUsages {} (streamEvents chunks) ≠ [] := by
  rw [endUsages_streamEvents h]
  cases hany : chunks.any finishes with
  | true =>
    obtain ⟨c, hc, hf⟩ := List.any_eq_true.mp hany
    simp [finishUsages_ne_nil hc hf]
  | false => simp

theorem counts_chunkUsage {chunk : Json} (hchunk : hasUsage chunk = true) (usage : Usage) :
    (chunkUsage usage chunk).counts = upstreamCounts chunk := by
  unfold chunkUsage
  rw [hchunk, Bool.true_or, if_pos rfl, counts_openAiUsage hchunk]

section

variable {before after : List Json} {chunk : Json} (hchunk : hasUsage chunk = true)
  (hother : ∀ c ∈ before ++ after, hasUsage c = false)

include hchunk hother in
theorem counts_of_zero (hzero : upstreamCounts chunk = (0, 0)) :
    ((before ++ chunk :: after).foldl chunkUsage {}).counts = (0, 0) ∧
      ∀ u ∈ finishUsages {} (before ++ chunk :: after), u.counts = (0, 0) := by
  obtain ⟨hbefore, hafter⟩ := List.forall_mem_append.mp hother
  have hat := counts_chunkUsage hchunk (before.foldl chunkUsage {})
  rw [hzero] at hat
  have hrest := zero_run hafter hat
  rw [List.foldl_append, List.foldl_cons, finishUsages_append, finishUsages]
  refine ⟨hrest.1, List.forall_mem_append.mpr ⟨(zero_run hbefore rfl).2,
    List.forall_mem_append.mpr ⟨?_, hrest.2⟩⟩⟩
  split <;> simp [hat]

include hchunk hother in
theorem counts_of_quiet (hfinish : ∀ c ∈ before, finishes c = false)
    (henergy : ∀ c ∈ after, hasEnergy c = false) :
    ((before ++ chunk :: after).foldl chunkUsage {}).counts = upstreamCounts chunk ∧
      ∀ u ∈ finishUsages {} (before ++ chunk :: after), u.counts = upstreamCounts chunk := by
  obtain ⟨-, hafter⟩ := List.forall_mem_append.mp hother
  have hat := counts_chunkUsage hchunk (before.foldl chunkUsage {})
  obtain ⟨hfold, hall⟩ := quiet_run hafter henergy (chunkUsage (before.foldl chunkUsage {}) chunk)
  rw [List.foldl_append, List.foldl_cons, finishUsages_append, finishUsages,
    finishUsages_eq_nil hfinish, hfold]
  refine ⟨hat, List.forall_mem_append.mpr ⟨by simp, List.forall_mem_append.mpr ⟨?_, ?_⟩⟩⟩
  · split <;> simp [hat]
  · intro u hu
    rw [hall u hu, hat]

include hother in
theorem zero_of_early_finish {c : Json} (hc : c ∈ before) (hf : finishes c = true) :
    ∃ u ∈ finishUsages {} (before ++ chunk :: after), u.counts = (0, 0) := by
  obtain ⟨hbefore, -⟩ := List.forall_mem_append.mp hother
  obtain ⟨u, hu⟩ := List.exists_mem_of_ne_nil _ (finishUsages_ne_nil hc hf {})
  refine ⟨u, ?_, (zero_run hbefore rfl).2 u hu⟩
  rw [finishUsages_append]
  exact List.mem_append_left _ hu

include hchunk hother in
/-- **The usage object reaches the client and the meter** exactly when no chunk before it ends the
message and no chunk after it carries energy telemetry, or when its counts are zero. -/
theorem usage_reported_iff (newId : String → ℕ → String) (id model : String) :
    (MessagesReport (({ id := id, model := model } : AnthropicStreamEncoder).encodeStream
          (streamEvents (before ++ chunk :: after))) (upstreamCounts chunk) ∧
        ResponsesReport ((OpenAiResponsesStreamEncoder.new newId id model).encodeStream newId
          (streamEvents (before ++ chunk :: after))) (upstreamCounts chunk) ∧
        MeterReport (streamEvents (before ++ chunk :: after)) (upstreamCounts chunk)) ↔
      upstreamCounts chunk = (0, 0) ∨
        ((∀ c ∈ before, finishes c = false) ∧ ∀ c ∈ after, hasEnergy c = false) := by
  have hne : before ++ chunk :: after ≠ [] := by simp
  rw [messagesReport_iff, responsesReport_iff, meterReport_iff]
  constructor
  · rintro ⟨-, ⟨-, hall⟩, hmeter⟩
    rw [or_iff_not_imp_left]
    intro hcounts
    constructor
    · intro c hc
      by_contra hf
      obtain ⟨u, hu, hzero⟩ :=
        zero_of_early_finish hother hc (Bool.eq_true_of_not_eq_false hf)
      rw [endUsages_streamEvents hne] at hall
      exact hcounts ((hall u (List.mem_append_left _ hu)).symm.trans hzero)
    · intro c hc
      by_contra he
      rw [List.foldl_append, List.foldl_cons, zero_of_energy
        (List.forall_mem_append.mp hother).2 ⟨c, hc, Bool.eq_true_of_not_eq_false he⟩] at hmeter
      exact hcounts hmeter.symm
  · intro h
    have hboth : ((before ++ chunk :: after).foldl chunkUsage {}).counts = upstreamCounts chunk ∧
        ∀ u ∈ finishUsages {} (before ++ chunk :: after), u.counts = upstreamCounts chunk := by
      rcases h with hzero | ⟨hfinish, henergy⟩
      · rw [hzero]
        exact counts_of_zero hchunk hother hzero
      · exact counts_of_quiet hchunk hother hfinish henergy
    have hall : ∀ u ∈ endUsages {} (streamEvents (before ++ chunk :: after)),
        u.counts = upstreamCounts chunk := by
      rw [endUsages_streamEvents hne]
      refine List.forall_mem_append.mpr ⟨hboth.2, ?_⟩
      split
      · simp
      · simpa using hboth.1
    have hends := endUsages_streamEvents_ne_nil hne
    refine ⟨⟨hends, fun u hu => ?_⟩, ⟨hends, hall⟩, hboth.1⟩
    exact congrArg Prod.snd (hall u (List.mem_of_mem_take hu))

end

/-- A chunk of text. -/
def textChunk : Json :=
  Json.mkObj [("choices", .arr [Json.mkObj [("delta", Json.mkObj [("content", .str "hi")])]])]

/-- A chunk that ends the message. -/
def stopChunk : Json :=
  Json.mkObj [("choices", .arr
    [Json.mkObj [("delta", Json.mkObj []), ("finish_reason", .str "stop")]])]

/-- A chunk with the counts and no choice, which `include_usage` puts last. -/
def countsChunk : Json :=
  Json.mkObj [("choices", .arr []), ("usage", Json.mkObj
    [("prompt_tokens", Json.ofNat 7), ("completion_tokens", Json.ofNat 3)])]

/-- The theorem with the counts before the end. -/
theorem usage_reported_before_end :
    MessagesReport (({ id := "", model := "" } : AnthropicStreamEncoder).encodeStream
        (streamEvents ([textChunk] ++ countsChunk :: [stopChunk]))) (7, 3) ∧
      MeterReport (streamEvents ([textChunk] ++ countsChunk :: [stopChunk])) (7, 3) := by
  have hcounts : upstreamCounts countsChunk = (7, 3) := by decide +kernel
  obtain ⟨hmessages, -, hmeter⟩ := (usage_reported_iff
    (show hasUsage countsChunk = true by decide +kernel)
    (show ∀ c ∈ [textChunk] ++ [stopChunk], hasUsage c = false by decide +kernel)
    (fun kind _ => kind) "" "").mpr (.inr ⟨by decide +kernel, by decide +kernel⟩)
  rw [hcounts] at hmessages hmeter
  exact ⟨hmessages, hmeter⟩

/-- With the counts after the end the client is told zero, and the meter records them. -/
theorem usage_after_end_is_lost :
    hasUsage countsChunk = true ∧ (∀ c ∈ [textChunk, stopChunk], hasUsage c = false) ∧
      ¬ MessagesReport (({ id := "", model := "" } : AnthropicStreamEncoder).encodeStream
        (streamEvents [textChunk, stopChunk, countsChunk])) (upstreamCounts countsChunk) ∧
      ¬ ResponsesReport
        ((OpenAiResponsesStreamEncoder.new (fun kind _ => kind) "" "").encodeStream
          (fun kind _ => kind) (streamEvents [textChunk, stopChunk, countsChunk]))
        (upstreamCounts countsChunk) ∧
      MeterReport (streamEvents [textChunk, stopChunk, countsChunk])
        (upstreamCounts countsChunk) := by
  have hcounts : upstreamCounts countsChunk = (7, 3) := by decide +kernel
  have hdelta : deltaOutputs (({ id := "", model := "" } : AnthropicStreamEncoder).encodeStream
      (streamEvents [textChunk, stopChunk, countsChunk])) = [some (Json.ofNat 0)] := by
    decide +kernel
  have hcompleted : completedUsages
      ((OpenAiResponsesStreamEncoder.new (fun kind _ => kind) "" "").encodeStream
        (fun kind _ => kind) (streamEvents [textChunk, stopChunk, countsChunk])) =
      [(some (Json.ofNat 0), some (Json.ofNat 0))] := by
    decide +kernel
  rw [hcounts]
  refine ⟨by decide +kernel, by decide +kernel, fun h => ?_, fun h => ?_,
    { usage := { inputTokens := 7, outputTokens := 3 }, finishReason := some .stop,
      outcome := .clean }, by decide +kernel, rfl⟩
  · exact absurd (h.2 (some (Json.ofNat 0)) (by simp [hdelta])) (by decide)
  · exact absurd (h.2 (some (Json.ofNat 0), some (Json.ofNat 0)) (by simp [hcompleted]))
      (by decide)

end Switchback
