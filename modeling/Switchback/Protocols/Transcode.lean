import Switchback.Protocols.Reassembly

/-!
# Transcoding a stream of tool calls

An OpenAI stream is decoded to canonical events; the collector makes a response of them, and the
two encoders frames for a client of another protocol.  Each of the three consumers follows the
pieces of the chunks; this is the collector.
-/

namespace Switchback

open Lib

/-! ### Following a stream -/

/-- The invariant `I` of a consumer is kept while the transcript evolves with the pieces. -/
structure Follows {σ : Type} (evolve : Track → Transcript → Piece → Transcript)
    (step : σ → AiStreamEvent → σ) (I : Track → Transcript → σ → Prop) : Prop where
  text_empty : ∀ t tape, evolve t tape (.text "") = tape
  finish_tape : ∀ t tape, evolve t tape .finish = tape
  start : ∀ {t tape s} id model, I t tape s → I t tape (step s (.messageStart id model))
  usage : ∀ {t tape s} usage, I t tape s → I t tape (step s (.usageDelta usage))
  text : ∀ {t tape s} text, text ≠ "" → I t tape s →
    I (t.step (.text text)) (evolve t tape (.text text)) (step s (.textDelta text))
  fragment : ∀ {t tape s} f, I t tape s →
    I (t.step (.fragment f)) (evolve t tape (.fragment f))
      ((OpenAiStreamDecoder.fragmentEvents t.seen f).foldl step s)
  finish : ∀ {t tape s} reason, I t tape s →
    I (t.step .finish) (evolve t tape .finish) (step s (.messageEnd reason))

theorem register_seen (t : Track) (index : ℕ) :
    (t.register index).seen = OpenAiStreamDecoder.seeIndex t.seen index := by
  unfold Track.register OpenAiStreamDecoder.seeIndex
  split <;> rfl

namespace Track

theorem run_text_seen (t : Track) (content : String) : (t.run [.text content]).seen = t.seen := by
  show (if content = "" then t else { t with textSince := true }).seen = t.seen
  split <;> rfl

theorem run_text_finished (t : Track) (content : String) :
    (t.run [.text content]).finished = t.finished := by
  show (if content = "" then t else { t with textSince := true }).finished = t.finished
  split <;> rfl

theorem run_fragments_finished (t : Track) (fragments : List ToolCallFragment) :
    (t.run (fragments.map .fragment)).finished = t.finished := by
  induction fragments generalizing t with
  | nil => rfl
  | cons f fragments ih => exact (ih (t.register f.index)).trans (t.register_finished f.index)

theorem run_finish_seen (t : Track) (finish : Option FinishReason) :
    (t.run (if finish.isSome then [.finish] else [])).seen = t.seen := by
  cases finish <;> rfl

theorem run_finish_finished (t : Track) (finish : Option FinishReason) :
    (t.run (if finish.isSome then [.finish] else [])).finished =
      (t.finished || finish.isSome) := by
  cases finish with
  | none => exact (Bool.or_false _).symm
  | some reason => exact (Bool.or_true _).symm

end Track

section Follows

variable {σ : Type} {evolve : Track → Transcript → Piece → Transcript}
  {step : σ → AiStreamEvent → σ} {I : Track → Transcript → σ → Prop}

theorem Follows.fragments (hf : Follows evolve step I) {t : Track} {tape : Transcript} {s : σ}
    (h : I t tape s) (fragments : List ToolCallFragment) :
    I (t.run (fragments.map .fragment)) (follow evolve t tape (fragments.map .fragment))
        ((OpenAiStreamDecoder.toolCallEvents t.seen fragments).1.foldl step s) ∧
      (t.run (fragments.map .fragment)).seen =
        (OpenAiStreamDecoder.toolCallEvents t.seen fragments).2 := by
  induction fragments generalizing t tape s with
  | nil => exact ⟨h, rfl⟩
  | cons f fragments ih =>
    have hstep := ih (hf.fragment f h)
    have hseen : (t.step (.fragment f)).seen = OpenAiStreamDecoder.seeIndex t.seen f.index :=
      register_seen t f.index
    rw [hseen] at hstep
    rw [OpenAiStreamDecoder.toolCallEvents]
    dsimp only
    rw [List.foldl_append]
    exact hstep

theorem Follows.text_event (hf : Follows evolve step I) {t : Track} {tape : Transcript} {s : σ}
    (content : String) (h : I t tape s) :
    I (t.run [.text content]) (follow evolve t tape [.text content])
      ((if content = "" then [] else [AiStreamEvent.textDelta content]).foldl step s) := by
  show I (t.step (.text content)) (evolve t tape (.text content)) _
  by_cases hc : content = ""
  · rw [if_pos hc, hc, hf.text_empty]
    exact h
  · rw [if_neg hc]
    exact hf.text content hc h

theorem Follows.finish_event (hf : Follows evolve step I) {t : Track} {tape : Transcript} {s : σ}
    (finish : Option FinishReason) (h : I t tape s) :
    I (t.run (if finish.isSome then [.finish] else []))
      (follow evolve t tape (if finish.isSome then [.finish] else []))
      ((finish.elim [] fun finish => [AiStreamEvent.messageEnd finish]).foldl step s) := by
  cases finish with
  | none => exact h
  | some reason => exact hf.finish reason h

/-- One chunk. -/
theorem Follows.chunk (hf : Follows evolve step I) {t : Track} {tape : Transcript} {s : σ}
    (h : I t tape s) {d : OpenAiStreamDecoder} (hseen : t.seen = d.seenToolCalls)
    (hended : t.finished = d.ended) (chunk : Json) :
    I (t.run (pieces chunk)) (follow evolve t tape (pieces chunk))
        ((d.decode chunk).1.foldl step s) ∧
      (t.run (pieces chunk)).seen = (d.decode chunk).2.seenToolCalls ∧
      (t.run (pieces chunk)).finished = (d.decode chunk).2.ended ∧
      (d.decode chunk).2.started = true := by
  have hstart : I t tape ((if d.started then [] else
      [AiStreamEvent.messageStart ((chunk.getStr "id").getD "")
        ((chunk.getStr "model").getD "")]).foldl step s) := by
    split
    · exact h
    · exact hf.start _ _ h
  have husage : ∀ s, I t tape s →
      I t tape ((OpenAiStreamDecoder.usageEvents chunk).foldl step s) := by
    intro s hs
    unfold OpenAiStreamDecoder.usageEvents
    dsimp only
    split
    · exact hf.usage _ hs
    · exact hs
  have hfirst := husage _ hstart
  rw [← List.foldl_append] at hfirst
  unfold pieces OpenAiStreamDecoder.decode
  cases chunkChoice chunk with
  | none => exact ⟨hfirst, hseen, hended, rfl⟩
  | some choice =>
    dsimp only
    rw [Option.elim_some, List.cons_append, ← List.singleton_append, follow_append,
      Track.run_append, follow_append, Track.run_append, List.foldl_append, List.foldl_append,
      List.foldl_append]
    have htext := hf.text_event choice.content hfirst
    have htools := hf.fragments htext choice.toolCalls
    rw [Track.run_text_seen, hseen] at htools
    have hend := hf.finish_event choice.finish htools.1
    refine ⟨hend, ?_, ?_, rfl⟩
    · rw [Track.run_finish_seen, htools.2]
    · rw [Track.run_finish_finished, Track.run_fragments_finished, Track.run_text_finished, hended]

/-- **A whole stream**: the consumer follows the pieces of all chunks, and the end has come
unless there were no chunks. -/
theorem Follows.run (hf : Follows evolve step I) {t : Track} {tape : Transcript} {s : σ}
    (h : I t tape s) {d : OpenAiStreamDecoder} (hseen : t.seen = d.seenToolCalls)
    (hended : t.finished = d.ended) (chunks : List Json) :
    ∃ t', I t' (follow evolve t tape (chunks.flatMap pieces))
        ((d.decodeStream chunks).foldl step s) ∧
      (d.started = true ∨ chunks ≠ [] → t'.finished = true) := by
  induction chunks generalizing t tape s d with
  | nil =>
    rw [OpenAiStreamDecoder.decodeStream, OpenAiStreamDecoder.finish]
    by_cases hopen : (d.started && !d.ended) = true
    · rw [if_pos hopen]
      have hend := hf.finish .stop h
      rw [hf.finish_tape] at hend
      exact ⟨_, hend, fun _ => rfl⟩
    · rw [if_neg hopen]
      refine ⟨t, h, fun hs => ?_⟩
      have hstarted : d.started = true := hs.resolve_right (absurd rfl)
      rw [hstarted, Bool.true_and, Bool.not_eq_true', Bool.not_eq_false] at hopen
      rw [hended, hopen]
  | cons chunk chunks ih =>
    obtain ⟨hI, hseen', hended', hstarted⟩ := hf.chunk h hseen hended chunk
    obtain ⟨t', hI', hfin⟩ := ih hI hseen' hended'
    rw [List.flatMap_cons, follow_append, OpenAiStreamDecoder.decodeStream, List.foldl_append]
    exact ⟨t', hI', fun _ => hfin (.inl hstarted)⟩

end Follows

/-! ### The collector -/

theorem errorless_follows : Follows (fun _ tape _ => tape)
    (fun ok event => ok && !event.isError) (fun _ _ ok => ok = true) where
  text_empty _ _ := rfl
  finish_tape _ _ := rfl
  start _ _ h := by rw [h]; rfl
  usage _ h := by rw [h]; rfl
  text _ _ h := by rw [h]; rfl
  fragment {t _ ok} f h := by
    unfold OpenAiStreamDecoder.fragmentEvents
    rw [h, List.foldl_append]
    cases f.arguments with
    | none => split <;> rfl
    | some json => split <;> rfl
  finish _ h := by rw [h]; rfl

theorem forall_of_foldl_and {α : Type} {f : α → Bool} {l : List α} {b : Bool}
    (h : l.foldl (fun ok a => ok && f a) b = true) : b = true ∧ ∀ a ∈ l, f a = true := by
  induction l generalizing b with
  | nil => exact ⟨h, by simp⟩
  | cons a l ih =>
    obtain ⟨hb, hl⟩ := ih h
    rw [Bool.and_eq_true] at hb
    exact ⟨hb.1, List.forall_mem_cons.mpr ⟨hb.2, hl⟩⟩

theorem isError_decodeStream (chunks : List Json) :
    ∀ event ∈ ({} : OpenAiStreamDecoder).decodeStream chunks, event.isError = false := by
  have hseen : ({} : Track).seen = ({} : OpenAiStreamDecoder).seenToolCalls := rfl
  obtain ⟨-, h, -⟩ := @Follows.run _ _ _ _ errorless_follows {} {} true rfl _ hseen rfl chunks
  intro event he
  have := (forall_of_foldl_and h).2 event he
  rwa [Bool.not_eq_true'] at this

/-- The indices of the calls in the order they started. -/
def noteStart (order : List ℕ) : AiStreamEvent → List ℕ
  | .toolCallStart start => order ++ [start.index]
  | _ => order

/-- The calls that `events` start. -/
def startOrder (events : List AiStreamEvent) : List ℕ := events.foldl noteStart []

/-- What the collector holds, with the calls in the order they started. -/
def CollectState.transcript (st : CollectState) (order : List ℕ) : Transcript where
  text := st.content
  reasoning := st.reasoning
  calls := order.filterMap st.toolUses.get

/-- The collector beside the order of the calls. -/
def collecting (p : CollectState × List ℕ) (event : AiStreamEvent) : CollectState × List ℕ :=
  (gather p.1 event, noteStart p.2 event)

theorem foldl_collecting (p : CollectState × List ℕ) (events : List AiStreamEvent) :
    events.foldl collecting p = (events.foldl gather p.1, events.foldl noteStart p.2) := by
  induction events generalizing p with
  | nil => rfl
  | cons event events ih => exact ih _

/-- The collector holds the transcript. -/
structure Collected (t : Track) (tape : Transcript) (p : CollectState × List ℕ) : Prop where
  good : t.Good
  order : p.2 = t.seen
  content : p.1.content = tape.text
  reasoning : p.1.reasoning = tape.reasoning
  calls : t.seen.map p.1.toolUses.get = tape.calls.map some
  absent : ∀ k, k ∉ t.seen → p.1.toolUses.get k = none

theorem Collected.transcript_eq {t : Track} {tape : Transcript} {p : CollectState × List ℕ}
    (h : Collected t tape p) : p.1.transcript p.2 = tape := by
  have hcalls : p.2.filterMap p.1.toolUses.get = tape.calls := by
    have hmap : p.2.filterMap p.1.toolUses.get = (t.seen.map p.1.toolUses.get).filterMap id := by
      rw [h.order, List.filterMap_map]
      rfl
    rw [hmap, h.calls, List.filterMap_map]
    exact List.filterMap_some
  unfold CollectState.transcript
  rw [h.content, h.reasoning, hcalls]

theorem Collected.order_perm {t : Track} {tape : Transcript} {p : CollectState × List ℕ}
    (h : Collected t tape p) : p.2.Perm p.1.toolUses.keys := by
  rw [h.order, List.perm_ext_iff_of_nodup h.good.nodup p.1.toolUses.nodup_keys]
  intro k
  rw [OrdMap.mem_keys_iff]
  constructor
  · intro hk
    obtain ⟨call, -, hcall⟩ : ∃ call ∈ tape.calls, some call = p.1.toolUses.get k := by
      rw [← List.mem_map, ← h.calls]
      exact List.mem_map_of_mem hk
    rw [← hcall]
    rfl
  · intro hk
    by_contra hn
    rw [h.absent k hn] at hk
    exact absurd hk (by simp)

theorem Collected.announce {t : Track} {tape : Transcript} {p : CollectState × List ℕ}
    (h : Collected t tape p) (f : ToolCallFragment) :
    Collected (t.register f.index) (announce t tape f)
      ((if f.index ∈ t.seen then []
        else [AiStreamEvent.toolCallStart
          { index := f.index, id := f.id, name := f.name }]).foldl collecting p) := by
  have hgood := h.good.register f.index
  unfold Switchback.announce Track.register at *
  by_cases hnew : f.index ∈ t.seen
  · simp only [if_pos hnew]
    exact h
  · simp only [if_neg hnew] at hgood ⊢
    refine ⟨hgood, by rw [← h.order]; rfl, h.content, h.reasoning, ?_, fun k hk => ?_⟩
    rotate_left
    · rw [List.mem_append, List.mem_singleton, not_or] at hk
      exact (OrdMap.get_insert ..).trans ((if_neg hk.2).trans (h.absent k hk.1))
    have hold : t.seen.map (p.1.toolUses.insert f.index
        { id := f.id, name := f.name, args := "" }).get = t.seen.map p.1.toolUses.get := by
      refine List.map_congr_left fun k hk => ?_
      have hne : k ≠ f.index := fun he => hnew (he ▸ hk)
      rw [OrdMap.get_insert, if_neg hne]
    show (t.seen ++ [f.index]).map (p.1.toolUses.insert f.index
      { id := f.id, name := f.name, args := "" }).get = _
    rw [List.map_append, hold, h.calls, List.map_append, List.map_singleton, OrdMap.get_insert,
      if_pos rfl]
    rfl

theorem Collected.append {t : Track} {tape : Transcript} {p : CollectState × List ℕ}
    (h : Collected t tape p) {index : ℕ} (json : String) :
    Collected t (appendAt tape (t.seen.idxOf index) json)
      (collecting p (.toolCallArgsDelta index json)) := by
  have hget : (p.1.toolUses.modify index (CollectedCall.append json)).get = fun k =>
      if k = index then (p.1.toolUses.get k).map (CollectedCall.append json)
      else p.1.toolUses.get k := funext fun k => OrdMap.get_modify ..
  refine ⟨h.good, h.order, h.content, h.reasoning, ?_, fun k hk => ?_⟩
  rotate_left
  · show (p.1.toolUses.modify index (CollectedCall.append json)).get k = none
    rw [hget]
    dsimp only
    rw [h.absent k hk]
    exact ite_self _
  show t.seen.map (p.1.toolUses.modify index (CollectedCall.append json)).get = _
  rw [hget, Slots.map_ite_eq_modify h.good.nodup, h.calls]
  have hsome : ∀ call, some (CollectedCall.append json call) =
      Option.map (CollectedCall.append json) (some call) := fun _ => rfl
  exact (Slots.map_modify hsome tape.calls _).symm

theorem collected_follows : Follows own collecting Collected where
  text_empty t tape := by rw [own, String.append_empty]
  finish_tape t tape := rfl
  start id model h := ⟨h.good, h.order, h.content, h.reasoning, h.calls, h.absent⟩
  usage usage h := ⟨h.good, h.order, h.content, h.reasoning, h.calls, h.absent⟩
  text {t tape p} text hne h := by
    have hseen := t.run_text_seen text
    refine ⟨h.good.step _, h.order.trans hseen.symm, ?_, h.reasoning, ?_, fun k hk => ?_⟩
    · show p.1.content ++ text = tape.text ++ text
      rw [h.content]
    · exact (congrArg (List.map _) hseen).trans h.calls
    · exact h.absent k (hseen ▸ hk)
  fragment {t tape p} f h := by
    have hannounce := h.announce f
    rw [OpenAiStreamDecoder.fragmentEvents, own, List.foldl_append]
    cases f.arguments with
    | none => exact hannounce
    | some json => exact hannounce.append json
  finish reason h := ⟨h.good.step _, h.order, h.content, h.reasoning, h.calls, h.absent⟩

end Switchback
