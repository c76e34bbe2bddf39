import Switchback.Adapters.Codec

/-!
# The arguments of a tool call

A call is followed through a stream by its index.  What an upstream sends about it is a list of
frames, and what the decoder emits about it a list of events; the decoder's two sets come down to
two flags.
-/

namespace Switchback

namespace ToolArgs

open Lib

/-! ### The events of one call -/

inductive CallEvent where
  | start (start : ToolCallStart)
  | args (json : String)
  | ended

namespace CallEvent

def isStart : CallEvent → Bool
  | start _ => true
  | _ => false

def isEnd : CallEvent → Bool
  | ended => true
  | _ => false

def argsText : CallEvent → Option String
  | args json => some json
  | _ => none

end CallEvent

def callEvent (i : ℕ) : AiStreamEvent → Option CallEvent
  | .toolCallStart start => if start.index = i then some (.start start) else none
  | .toolCallArgsDelta index json => if index = i then some (.args json) else none
  | .toolCallEnd index => if index = i then some .ended else none
  | _ => none

def callEvents (i : ℕ) (events : List AiStreamEvent) : List CallEvent :=
  events.filterMap (callEvent i)

/-- The argument string that comes out. -/
def argsText (events : List CallEvent) : String :=
  String.join (events.filterMap CallEvent.argsText)

/-- One start, before the arguments; at most one end; and the argument string, once. -/
structure DecodedOnce (events : List CallEvent) (arguments : String) : Prop where
  starts : events.countP CallEvent.isStart = 1
  first : ∀ before json after, events = before ++ .args json :: after →
    ∃ start, .start start ∈ before
  ends : events.countP CallEvent.isEnd ≤ 1
  text : argsText events = arguments

theorem callEvents_append (i : ℕ) (l₁ l₂ : List AiStreamEvent) :
    callEvents i (l₁ ++ l₂) = callEvents i l₁ ++ callEvents i l₂ := List.filterMap_append

theorem argsText_cons_args (json : String) (l : List CallEvent) :
    argsText (.args json :: l) = json ++ argsText l := by
  show String.join (json :: l.filterMap CallEvent.argsText) = _
  rw [String.join_cons]
  rfl

theorem argsText_cons_ended (l : List CallEvent) : argsText (.ended :: l) = argsText l := rfl

/-- Events that begin with the only start. -/
theorem decodedOnce_cons_iff {start : ToolCallStart} {l : List CallEvent} {arguments : String}
    (hl : l.countP CallEvent.isStart = 0) :
    DecodedOnce (.start start :: l) arguments ↔
      l.countP CallEvent.isEnd ≤ 1 ∧ argsText l = arguments := by
  constructor
  · intro h
    refine ⟨?_, h.text⟩
    have hends := h.ends
    rwa [List.countP_cons_of_neg (by simp [CallEvent.isEnd])] at hends
  · rintro ⟨hends, htext⟩
    refine ⟨?_, ?_, ?_, htext⟩
    · rw [List.countP_cons_of_pos rfl, hl]
    · intro before json after heq
      cases before with
      | nil => cases heq
      | cons e before =>
        cases heq
        exact ⟨start, List.mem_cons_self⟩
    · rwa [List.countP_cons_of_neg (by simp [CallEvent.isEnd])]

/-! ### The frames of one call -/

/-- What a Responses frame says about a call. -/
inductive CallFrame where
  | opened (start : ToolCallStart) (arguments : String)
  | delta (text : String)
  | done (arguments : String)
  deriving DecidableEq

namespace CallFrame

def fragment : CallFrame → Option String
  | delta text => some text
  | _ => none

def isDone : CallFrame → Bool
  | done _ => true
  | _ => false

end CallFrame

def callFrame (i : ℕ) (frame : Json) : Option CallFrame :=
  match responsesFrameKind frame with
  | .outputItemAdded =>
      (itemCall frame).bind fun start =>
        if start.index = i then
          some (.opened start ((pointerStr ["item", "arguments"] frame).getD ""))
        else none
  | .argumentsDelta =>
      if responsesOutputIndex frame = i then (frame.getStr "delta").map .delta else none
  | .argumentsDone =>
      if responsesOutputIndex frame = i then
        some (.done ((frame.getStr "arguments").getD ""))
      else none
  | _ => none

def callFrames (i : ℕ) (frames : List Json) : List CallFrame := frames.filterMap (callFrame i)

/-- Does the decoder know the call, and have arguments of it gone out as fragments? -/
structure CallState where
  opened : Bool := false
  streamed : Bool := false

/-- The decoder on a frame of one call. -/
def callStep (s : CallState) : CallFrame → List CallEvent × CallState
  | .opened start arguments =>
      if s.opened then ([], s)
      else if arguments = "" then ([.start start], { s with opened := true })
      else ([.start start, .args arguments], ⟨true, true⟩)
  | .delta text => ([.args text], { s with streamed := true })
  | .done arguments =>
      if s.opened then
        ((if s.streamed ∨ arguments = "" then [] else [.args arguments]) ++ [.ended], s)
      else ([], s)

def callRun (s : CallState) : List CallFrame → List CallEvent
  | [] => []
  | frame :: frames => (callStep s frame).1 ++ callRun (callStep s frame).2 frames

/-- The two sets of the decoder, for one call. -/
def stateOf (d : OpenAiResponsesDecoder) (i : ℕ) : CallState :=
  ⟨i ∈ d.toolIndices, i ∈ d.toolArgsStreamed⟩

/-! ### One step of the decoder -/

variable {i : ℕ} (d : OpenAiResponsesDecoder)

theorem callEvents_map_none {α : Type} {f : α → AiStreamEvent}
    (h : ∀ a, callEvent i (f a) = none) (l : List α) : callEvents i (l.map f) = [] := by
  unfold callEvents
  rw [List.filterMap_map, List.filterMap_eq_nil_iff]
  exact fun a _ => h a

theorem callEvents_openCall (frame : Json) (start : ToolCallStart) (i : ℕ) :
    (callEvents i (d.openCall frame start).1, stateOf (d.openCall frame start).2 i) =
      if start.index = i then
        callStep (stateOf d i)
          (.opened start ((pointerStr ["item", "arguments"] frame).getD ""))
      else ([], stateOf d i) := by
  unfold OpenAiResponsesDecoder.openCall callStep stateOf
  by_cases hseen : start.index ∈ d.toolIndices
  · rw [if_pos hseen]
    by_cases hi : start.index = i
    · subst hi
      simp [hseen, callEvents]
    · simp [hi, callEvents]
  · rw [if_neg hseen]
    dsimp only
    cases hargs : pointerStr ["item", "arguments"] frame with
    | none =>
      by_cases hi : start.index = i
      · subst hi
        simp [hseen, callEvents, callEvent]
      · simp [hi, Ne.symm hi, callEvents, callEvent]
    | some arguments =>
      by_cases hempty : arguments = ""
      · have hfilter : (some arguments).filter (fun args => args ≠ "") = none := by simp [hempty]
        rw [hfilter]
        by_cases hi : start.index = i
        · subst hi
          simp [hseen, hempty, callEvents, callEvent]
        · simp [hi, Ne.symm hi, callEvents, callEvent]
      · have hfilter : (some arguments).filter (fun args => args ≠ "") = some arguments := by
          simp [hempty]
        rw [hfilter]
        by_cases hi : start.index = i
        · subst hi
          simp [hseen, hempty, callEvents, callEvent]
        · simp [hi, Ne.symm hi, callEvents, callEvent]

theorem callEvents_closeCall (frame : Json) (i : ℕ) :
    callEvents i (d.closeCall frame) =
      if responsesOutputIndex frame = i then
        (callStep (stateOf d i) (.done ((frame.getStr "arguments").getD ""))).1
      else [] := by
  unfold OpenAiResponsesDecoder.closeCall callStep stateOf
  generalize responsesOutputIndex frame = index
  by_cases hi : index = i
  · subst hi
    by_cases hopen : index ∈ d.toolIndices
    · by_cases hstreamed : index ∈ d.toolArgsStreamed
      · simp [hopen, hstreamed, callEvents, callEvent]
      · cases hargs : frame.getStr "arguments" with
        | none => simp [hopen, hstreamed, callEvents, callEvent]
        | some arguments =>
          by_cases hempty : arguments = ""
          · simp [hopen, hstreamed, hempty, callEvents, callEvent]
          · have hfilter : (some arguments).filter (fun args => args ≠ "") = some arguments := by
              simp [hempty]
            rw [hfilter]
            simp [hopen, hstreamed, hempty, callEvents, callEvent]
    · simp [hopen, callEvents]
  · by_cases hopen : index ∈ d.toolIndices
    · by_cases hstreamed : index ∈ d.toolArgsStreamed
      · simp [hopen, hstreamed, hi, callEvents, callEvent]
      · simp only [hopen, hstreamed, hi, if_true, if_false]
        rw [callEvents_append, callEvents_map_none fun _ => by simp [callEvent, hi]]
        simp [callEvents, callEvent, hi]
    · simp [hopen, hi, callEvents]

theorem callStep_done (s : CallState) (arguments : String) :
    callStep s (.done arguments) = ((callStep s (.done arguments)).1, s) := by
  unfold callStep
  dsimp only
  split <;> rfl

theorem callEvents_decode (frame : Json) (i : ℕ) :
    (callEvents i (d.decode frame).1, stateOf (d.decode frame).2 i) =
      (callFrame i frame).elim ([], stateOf d i) (callStep (stateOf d i)) := by
  unfold OpenAiResponsesDecoder.decode callFrame
  cases responsesFrameKind frame with
  | outputItemAdded =>
    dsimp only
    cases itemCall frame with
    | none => rfl
    | some start =>
      dsimp only [Option.elim, Option.bind]
      rw [callEvents_openCall]
      split <;> rfl
  | argumentsDelta =>
    dsimp only
    cases frame.getStr "delta" with
    | none =>
      dsimp only [Option.map]
      rw [ite_self]
      rfl
    | some text =>
      dsimp only
      by_cases hi : responsesOutputIndex frame = i
      · subst hi
        simp [callEvents, callEvent, stateOf, callStep]
      · simp [callEvents, callEvent, stateOf, hi, Ne.symm hi]
  | argumentsDone =>
    dsimp only
    rw [callEvents_closeCall]
    split
    · exact (callStep_done _ _).symm
    · rfl
  | outputTextDelta =>
    exact congrArg (·, stateOf d i) (callEvents_map_none (fun _ => rfl) _)
  | reasoningDelta =>
    exact congrArg (·, stateOf d i) (callEvents_map_none (fun _ => rfl) _)
  | annotationAdded =>
    exact congrArg (·, stateOf d i) (callEvents_map_none (fun _ => rfl) _)
  | imageCompleted =>
    exact congrArg (·, stateOf d i) (callEvents_map_none (fun _ => rfl) _)
  | _ => rfl

theorem callEvents_decodeStream (frames : List Json) (i : ℕ) :
    callEvents i (d.decodeStream frames) = callRun (stateOf d i) (callFrames i frames) := by
  induction frames generalizing d with
  | nil => rfl
  | cons frame frames ih =>
    have hstep := callEvents_decode d frame i
    unfold OpenAiResponsesDecoder.decodeStream
    rw [callEvents_append, ih]
    unfold callFrames
    cases hframe : callFrame i frame with
    | none =>
      rw [hframe] at hstep
      obtain ⟨hevents, hstate⟩ := Prod.mk.inj hstep
      rw [List.filterMap_cons_none hframe, hevents, hstate]
      rfl
    | some f =>
      rw [hframe] at hstep
      obtain ⟨hevents, hstate⟩ := Prod.mk.inj hstep
      rw [List.filterMap_cons_some hframe, hevents, hstate]
      rfl

/-! ### Calls that come out once -/

/-- The fragments of a call, put together. -/
def fragments (frames : List CallFrame) : String :=
  String.join (frames.filterMap CallFrame.fragment)

/-- A fragment, or the whole string. -/
def Follows (arguments : String) : CallFrame → Prop
  | .opened .. => False
  | .delta _ => True
  | .done full => full = arguments

/-- The frames of a call with these arguments: an item opens it, then come fragments and one or more
`done` frames with the whole string. -/
def CallOf (arguments : String) : List CallFrame → Prop
  | .opened _ _ :: frames =>
      (∀ f ∈ frames, Follows arguments f) ∧ 1 ≤ frames.countP CallFrame.isDone
  | _ => False

/-- One `done` frame closes the call.  Where it comes before every fragment none follows it, and
where a fragment is before it the fragments are the string. -/
def ClosedOnce (arguments : String) : List CallFrame → Prop
  | .opened _ first :: frames =>
      frames.countP CallFrame.isDone = 1 ∧
        if first = "" ∧ frames.head?.any CallFrame.isDone then fragments frames = ""
        else first ++ fragments frames = arguments
  | _ => False

theorem fragments_delta (text : String) (frames : List CallFrame) :
    fragments (.delta text :: frames) = text ++ fragments frames := by
  show String.join (text :: frames.filterMap CallFrame.fragment) = _
  rw [String.join_cons]
  rfl

theorem fragments_done (full : String) (frames : List CallFrame) :
    fragments (.done full :: frames) = fragments frames := rfl

section

variable {arguments : String} {frames : List CallFrame}

theorem callRun_delta (s : CallState) (text : String) :
    callRun s (.delta text :: frames) = .args text :: callRun { s with streamed := true } frames :=
  rfl

theorem callRun_done (streamed : Bool) (full : String) :
    callRun ⟨true, streamed⟩ (.done full :: frames) =
      (if streamed ∨ full = "" then [] else [.args full]) ++
        .ended :: callRun ⟨true, streamed⟩ frames := by
  rw [callRun, callStep_done]
  unfold callStep
  simp

theorem countP_callRun (h : ∀ f ∈ frames, Follows arguments f) (streamed : Bool) :
    (callRun ⟨true, streamed⟩ frames).countP CallEvent.isStart = 0 ∧
      (callRun ⟨true, streamed⟩ frames).countP CallEvent.isEnd =
        frames.countP CallFrame.isDone := by
  induction frames generalizing streamed with
  | nil => exact ⟨rfl, rfl⟩
  | cons f frames ih =>
    have hrest := fun f hf => h f (List.mem_cons_of_mem _ hf)
    cases f with
    | opened start first => exact absurd (h _ List.mem_cons_self) id
    | delta text =>
      obtain ⟨hstart, hend⟩ := ih hrest true
      rw [callRun_delta, List.countP_cons_of_neg (by simp [CallEvent.isStart]),
        List.countP_cons_of_neg (by simp [CallEvent.isEnd]),
        List.countP_cons_of_neg (by simp [CallFrame.isDone])]
      exact ⟨hstart, hend⟩
    | done full =>
      obtain ⟨hstart, hend⟩ := ih hrest streamed
      rw [callRun_done, List.countP_append, List.countP_append,
        List.countP_cons_of_neg (by simp [CallEvent.isStart]), List.countP_cons_of_pos rfl,
        List.countP_cons_of_pos rfl, hstart, hend]
      split <;> simp [CallEvent.isStart, CallEvent.isEnd]

/-- Once a fragment is out, the fragments are all that comes out. -/
theorem argsText_streamed (h : ∀ f ∈ frames, Follows arguments f) :
    argsText (callRun ⟨true, true⟩ frames) = fragments frames := by
  induction frames with
  | nil => rfl
  | cons f frames ih =>
    have hrest := ih fun f hf => h f (List.mem_cons_of_mem _ hf)
    cases f with
    | opened start first => exact absurd (h _ List.mem_cons_self) id
    | delta text => rw [callRun_delta, argsText_cons_args, fragments_delta, hrest]
    | done full =>
      rw [callRun_done, if_pos (Or.inl rfl), List.nil_append, argsText_cons_ended, fragments_done,
        hrest]

theorem argsText_of_not_done (h : ∀ f ∈ frames, Follows arguments f)
    (hdone : frames.countP CallFrame.isDone = 0) (streamed : Bool) :
    argsText (callRun ⟨true, streamed⟩ frames) = fragments frames := by
  cases frames with
  | nil => rfl
  | cons f frames =>
    cases f with
    | opened start first => exact absurd (h _ List.mem_cons_self) id
    | delta text =>
      rw [callRun_delta, argsText_cons_args, fragments_delta,
        argsText_streamed fun f hf => h f (List.mem_cons_of_mem _ hf)]
    | done full =>
      rw [List.countP_cons_of_pos rfl] at hdone
      omega

theorem argsText_unstreamed (h : ∀ f ∈ frames, Follows arguments f)
    (hdone : frames.countP CallFrame.isDone = 1) :
    argsText (callRun ⟨true, false⟩ frames) =
      if frames.head?.any CallFrame.isDone then arguments ++ fragments frames
      else fragments frames := by
  cases frames with
  | nil => cases hdone
  | cons f frames =>
    have hrest := fun f hf => h f (List.mem_cons_of_mem _ hf)
    cases f with
    | opened start first => exact absurd (h _ List.mem_cons_self) id
    | delta text =>
      rw [if_neg (by simp [CallFrame.isDone]), callRun_delta, argsText_cons_args, fragments_delta,
        argsText_streamed hrest]
    | done full =>
      obtain rfl : full = arguments := h _ List.mem_cons_self
      rw [List.countP_cons_of_pos rfl] at hdone
      have hhead : (CallFrame.done full :: frames).head?.any CallFrame.isDone = true := rfl
      rw [if_pos hhead, callRun_done, fragments_done]
      have htext := argsText_of_not_done hrest (by omega) false
      by_cases hempty : full = ""
      · rw [if_pos (.inr hempty), List.nil_append, argsText_cons_ended, htext, hempty,
          String.empty_append]
      · rw [if_neg (by simp [hempty]), List.singleton_append, argsText_cons_args,
          argsText_cons_ended, htext]

theorem decodedOnce_callRun_iff (h : CallOf arguments frames) :
    DecodedOnce (callRun {} frames) arguments ↔ ClosedOnce arguments frames := by
  cases frames with
  | nil => exact absurd h id
  | cons f frames =>
    cases f with
    | delta text => exact absurd h id
    | done full => exact absurd h id
    | opened start first =>
      obtain ⟨hfollows, hdone⟩ := h
      by_cases hfirst : first = ""
      · subst hfirst
        obtain ⟨hstart, hend⟩ := countP_callRun hfollows false
        have hrun : callRun {} (.opened start "" :: frames) =
            .start start :: callRun ⟨true, false⟩ frames := rfl
        rw [hrun, decodedOnce_cons_iff hstart, hend]
        unfold ClosedOnce
        constructor
        · rintro ⟨hle, htext⟩
          have hone : frames.countP CallFrame.isDone = 1 := by omega
          refine ⟨hone, ?_⟩
          rw [argsText_unstreamed hfollows hone] at htext
          by_cases hhead : frames.head?.any CallFrame.isDone
          · rw [if_pos hhead] at htext
            rw [if_pos ⟨rfl, hhead⟩]
            exact String.append_right_inj arguments |>.mp (htext.trans String.append_empty.symm)
          · rw [if_neg hhead] at htext
            rw [if_neg fun hc => hhead hc.2, String.empty_append]
            exact htext
        · rintro ⟨hone, htext⟩
          refine ⟨hone.le, ?_⟩
          rw [argsText_unstreamed hfollows hone]
          by_cases hhead : frames.head?.any CallFrame.isDone
          · rw [if_pos ⟨rfl, hhead⟩] at htext
            rw [if_pos hhead, htext, String.append_empty]
          · rw [if_neg fun hc => hhead hc.2, String.empty_append] at htext
            rw [if_neg hhead, htext]
      · obtain ⟨hstart, hend⟩ := countP_callRun hfollows true
        have hrun : callRun {} (.opened start first :: frames) =
            .start start :: .args first :: callRun ⟨true, true⟩ frames := by
          rw [callRun]
          unfold callStep
          simp [hfirst]
        rw [hrun, decodedOnce_cons_iff
          (by rw [List.countP_cons_of_neg (by simp [CallEvent.isStart]),
          hstart]), List.countP_cons_of_neg (by simp [CallEvent.isEnd]), hend,
          argsText_cons_args, argsText_streamed hfollows]
        unfold ClosedOnce
        dsimp only
        rw [if_neg fun hc => hfirst hc.1]
        constructor
        · rintro ⟨hle, htext⟩
          exact ⟨by omega, htext⟩
        · rintro ⟨hone, htext⟩
          exact ⟨hone.le, htext⟩

end

/-! ### Chat chunks -/

/-- The fragments of a call in the chunks of a Chat Completions stream. -/
def chunkFragments (i : ℕ) (chunks : List Json) : List ToolCallFragment :=
  (chunks.flatMap fun chunk => (chunkChoice chunk).elim [] ChunkChoice.toolCalls).filter
    fun f => f.index = i

/-- The decoder on the fragments of one call. -/
def fragmentRun : Bool → List ToolCallFragment → List CallEvent
  | _, [] => []
  | seen, f :: fragments =>
      (if seen then [] else [.start { index := f.index, id := f.id, name := f.name }]) ++
        (f.arguments.map .args).toList ++ fragmentRun true fragments

theorem fragmentRun_append (seen : Bool) (l₁ l₂ : List ToolCallFragment) :
    fragmentRun seen (l₁ ++ l₂) =
      fragmentRun seen l₁ ++ fragmentRun (seen || !l₁.isEmpty) l₂ := by
  induction l₁ generalizing seen with
  | nil => simp [fragmentRun]
  | cons f l₁ ih =>
    rw [List.cons_append, fragmentRun, fragmentRun, ih]
    simp

theorem mem_seeIndex {seen : List ℕ} {index : ℕ} :
    i ∈ OpenAiStreamDecoder.seeIndex seen index ↔ i ∈ seen ∨ index = i := by
  unfold OpenAiStreamDecoder.seeIndex
  split
  · next h =>
    constructor
    · exact .inl
    · rintro (hi | rfl)
      · exact hi
      · exact h
  · rw [List.mem_append, List.mem_singleton, @eq_comm _ i]

theorem callEvents_fragmentEvents (seen : List ℕ) (f : ToolCallFragment) (i : ℕ) :
    callEvents i (OpenAiStreamDecoder.fragmentEvents seen f) =
      if f.index = i then fragmentRun (i ∈ seen) [f] else [] := by
  unfold OpenAiStreamDecoder.fragmentEvents
  by_cases hi : f.index = i
  · subst hi
    cases hargs : f.arguments <;> by_cases hseen : f.index ∈ seen <;>
      simp [hseen, hargs, callEvents, callEvent, fragmentRun]
  · cases f.arguments <;> by_cases hseen : f.index ∈ seen <;>
      simp [hseen, hi, callEvents, callEvent]

theorem callEvents_toolCallEvents (seen : List ℕ) (fs : List ToolCallFragment) (i : ℕ) :
    callEvents i (OpenAiStreamDecoder.toolCallEvents seen fs).1 =
        fragmentRun (i ∈ seen) (fs.filter fun f => f.index = i) ∧
      (i ∈ (OpenAiStreamDecoder.toolCallEvents seen fs).2 ↔
        i ∈ seen ∨ fs.filter (fun f => f.index = i) ≠ []) := by
  induction fs generalizing seen with
  | nil => simp [OpenAiStreamDecoder.toolCallEvents, callEvents, fragmentRun]
  | cons f fs ih =>
    obtain ⟨hevents, hseen⟩ := ih (OpenAiStreamDecoder.seeIndex seen f.index)
    rw [OpenAiStreamDecoder.toolCallEvents]
    dsimp only
    rw [callEvents_append, callEvents_fragmentEvents, hevents, hseen]
    by_cases hi : f.index = i
    · have hmem : i ∈ OpenAiStreamDecoder.seeIndex seen f.index := mem_seeIndex.mpr (.inr hi)
      rw [if_pos hi, List.filter_cons_of_pos (by simpa using hi)]
      refine ⟨?_, by simp [hmem]⟩
      have happ := fragmentRun_append (i ∈ seen) [f] (fs.filter fun f => f.index = i)
      rw [List.singleton_append] at happ
      rw [happ]
      simp [hmem]
    · have hmem : i ∈ OpenAiStreamDecoder.seeIndex seen f.index ↔ i ∈ seen := by
        rw [mem_seeIndex, or_iff_left hi]
      rw [if_neg hi, List.filter_cons_of_neg (by simpa using hi)]
      rw [List.nil_append]
      constructor
      · simp only [hmem]
      · simp only [hmem]

theorem callEvents_chunk (d : OpenAiStreamDecoder) (chunk : Json) (i : ℕ) :
    callEvents i (d.decode chunk).1 =
        fragmentRun (i ∈ d.seenToolCalls) (chunkFragments i [chunk]) ∧
      (i ∈ (d.decode chunk).2.seenToolCalls ↔
        i ∈ d.seenToolCalls ∨ chunkFragments i [chunk] ≠ []) := by
  have hstart : callEvents i (if d.started then []
      else [.messageStart ((chunk.getStr "id").getD "") ((chunk.getStr "model").getD "")]) = [] := by
    split <;> rfl
  have husage : callEvents i (OpenAiStreamDecoder.usageEvents chunk) = [] := by
    unfold OpenAiStreamDecoder.usageEvents
    dsimp only
    split <;> rfl
  unfold OpenAiStreamDecoder.decode chunkFragments
  rw [List.flatMap_singleton]
  cases hchoice : chunkChoice chunk with
  | none =>
    dsimp only
    rw [callEvents_append, hstart, husage]
    exact ⟨rfl, by simp⟩
  | some choice =>
    obtain ⟨hevents, hseen⟩ := callEvents_toolCallEvents d.seenToolCalls choice.toolCalls i
    have htext : callEvents i (if choice.content = "" then [] else [.textDelta choice.content]) =
        [] := by
      split <;> rfl
    have hstop : callEvents i (choice.finish.elim [] fun finish => [.messageEnd finish]) = [] := by
      cases choice.finish <;> rfl
    simp only [Option.elim_some]
    refine ⟨?_, hseen⟩
    rw [callEvents_append, callEvents_append, callEvents_append, callEvents_append, hstart, husage,
      htext, hstop, hevents, List.append_nil]
    rfl

theorem chunkFragments_cons (i : ℕ) (chunk : Json) (chunks : List Json) :
    chunkFragments i (chunk :: chunks) = chunkFragments i [chunk] ++ chunkFragments i chunks := by
  unfold chunkFragments
  rw [List.flatMap_cons, List.filter_append, List.flatMap_singleton]

theorem callEvents_chunks (d : OpenAiStreamDecoder) (chunks : List Json) (i : ℕ) :
    callEvents i (d.decodeStream chunks) =
      fragmentRun (i ∈ d.seenToolCalls) (chunkFragments i chunks) := by
  induction chunks generalizing d with
  | nil =>
    rw [OpenAiStreamDecoder.decodeStream]
    unfold OpenAiStreamDecoder.finish
    split <;> rfl
  | cons chunk chunks ih =>
    obtain ⟨hevents, hseen⟩ := callEvents_chunk d chunk i
    rw [OpenAiStreamDecoder.decodeStream, callEvents_append, ih, hevents,
      chunkFragments_cons i chunk chunks, fragmentRun_append]
    congr 2
    rw [Bool.eq_iff_iff]
    simp [hseen]

theorem fragmentRun_seen (fs : List ToolCallFragment) :
    (fragmentRun true fs).countP CallEvent.isStart = 0 ∧
      (fragmentRun true fs).countP CallEvent.isEnd = 0 ∧
      argsText (fragmentRun true fs) = String.join (fs.filterMap ToolCallFragment.arguments) := by
  induction fs with
  | nil => exact ⟨rfl, rfl, rfl⟩
  | cons f fs ih =>
    obtain ⟨hstart, hend, htext⟩ := ih
    rw [fragmentRun, if_pos rfl, List.nil_append]
    cases hargs : f.arguments with
    | none =>
      rw [List.filterMap_cons_none hargs]
      exact ⟨hstart, hend, htext⟩
    | some json =>
      rw [List.filterMap_cons_some hargs, String.join_cons, ← htext]
      refine ⟨?_, ?_, argsText_cons_args json _⟩
      · exact (List.countP_cons_of_neg (by simp [CallEvent.isStart])).trans hstart
      · exact (List.countP_cons_of_neg (by simp [CallEvent.isEnd])).trans hend

theorem decodedOnce_fragmentRun {fs : List ToolCallFragment} (h : fs ≠ []) :
    DecodedOnce (fragmentRun false fs) (String.join (fs.filterMap ToolCallFragment.arguments)) := by
  cases fs with
  | nil => exact absurd rfl h
  | cons f fs =>
    obtain ⟨hstart, hend, htext⟩ := fragmentRun_seen fs
    rw [fragmentRun, if_neg Bool.false_ne_true]
    cases hargs : f.arguments with
    | none =>
      rw [List.filterMap_cons_none hargs]
      exact (decodedOnce_cons_iff hstart).mpr ⟨by omega, htext⟩
    | some json =>
      rw [List.filterMap_cons_some hargs, String.join_cons, ← htext]
      refine (decodedOnce_cons_iff ?_).mpr ⟨?_, argsText_cons_args json _⟩
      · exact (List.countP_cons_of_neg (by simp [CallEvent.isStart])).trans hstart
      · refine ((List.countP_cons_of_neg (by simp [CallEvent.isEnd])).trans hend).le.trans ?_
        omega

/-- Every call of the stream is one of these argument strings. -/
def WellSent (frames : List Json) (arguments : ℕ → String) : Prop :=
  ∀ i, callFrames i frames ≠ [] → CallOf (arguments i) (callFrames i frames)

/-- **Tool arguments are decoded once**: always from the chunks of a Chat stream, and from the
frames of a Responses stream exactly when every call is closed once. -/
theorem decoded_once_iff (model : String) (frames : List Json) (arguments : ℕ → String)
    (chunks : List Json) :
    (WellSent frames arguments →
      ((∀ i, callFrames i frames ≠ [] →
          DecodedOnce
            (callEvents i (({ model := model } : OpenAiResponsesDecoder).decodeStream frames))
            (arguments i)) ↔
        ∀ i, callFrames i frames ≠ [] → ClosedOnce (arguments i) (callFrames i frames))) ∧
    (∀ i, chunkFragments i chunks ≠ [] →
      DecodedOnce (callEvents i (({} : OpenAiStreamDecoder).decodeStream chunks))
        (String.join ((chunkFragments i chunks).filterMap ToolCallFragment.arguments))) := by
  constructor
  · intro hsent
    refine forall₂_congr fun i hcall => ?_
    rw [callEvents_decodeStream]
    exact decodedOnce_callRun_iff (hsent i hcall)
  · intro i hcall
    rw [callEvents_chunks]
    exact decodedOnce_fragmentRun hcall

/-! ### A call that is closed again -/

def addedFrame (index : ℕ) (arguments : String) : Json :=
  Json.mkObj
    [("type", .str "response.output_item.added"), ("output_index", Json.ofNat index),
      ("item", Json.mkObj
        [("type", .str "function_call"), ("call_id", .str "call_1"), ("name", .str "get_weather"),
          ("arguments", .str arguments)])]

def deltaFrame (index : ℕ) (delta : String) : Json :=
  Json.mkObj
    [("type", .str "response.function_call_arguments.delta"), ("output_index", Json.ofNat index),
      ("delta", .str delta)]

def doneFrame (index : ℕ) (arguments : String) : Json :=
  Json.mkObj
    [("type", .str "response.function_call_arguments.done"), ("output_index", Json.ofNat index),
      ("arguments", .str arguments)]

theorem callFrame_of_ne {frame : Json} (h : responsesOutputIndex frame ≠ i) :
    callFrame i frame = none := by
  unfold callFrame
  cases responsesFrameKind frame with
  | outputItemAdded =>
    dsimp only
    unfold itemCall
    split
    · exact if_neg h
    · rfl
  | argumentsDelta => exact if_neg h
  | argumentsDone => exact if_neg h
  | _ => rfl

theorem callFrames_eq_nil {frames : List Json}
    (hindex : ∀ frame ∈ frames, responsesOutputIndex frame = 0) (hi : i ≠ 0) :
    callFrames i frames = [] := by
  refine List.filterMap_eq_nil_iff.mpr fun frame hframe => ?_
  exact callFrame_of_ne fun heq => hi ((hindex frame hframe).symm.trans heq).symm

theorem wellSent_zero {frames : List Json} {arguments : String}
    (hindex : ∀ frame ∈ frames, responsesOutputIndex frame = 0)
    (hcall : CallOf arguments (callFrames 0 frames)) : WellSent frames fun _ => arguments := by
  intro i hi
  by_cases hzero : i = 0
  · rw [hzero]
    exact hcall
  · exact absurd (callFrames_eq_nil hindex hzero) hi

/-- The chunk of a Chat stream that calls a tool. -/
def callChunk : Json :=
  Json.mkObj [("choices", .arr [Json.mkObj [("delta", Json.mkObj [("tool_calls", .arr
    [Json.mkObj [("index", Json.ofNat 0), ("id", .str "call_1"), ("function", Json.mkObj
      [("name", .str "get_weather"), ("arguments", .str "[1]")])]])])]])]

def closedOnce : List Json := [addedFrame 0 "", deltaFrame 0 "[1]", doneFrame 0 "[1]"]

theorem callFrames_closedOnce :
    callFrames 0 closedOnce =
      [.opened ⟨0, "call_1", "get_weather"⟩ "", .delta "[1]", .done "[1]"] := by decide +kernel

theorem decoded_once_closedOnce :
    (∀ i, callFrames i closedOnce ≠ [] →
      DecodedOnce (callEvents i (({ model := "" } : OpenAiResponsesDecoder).decodeStream
        closedOnce)) "[1]") ∧
    DecodedOnce (callEvents 0 (({} : OpenAiStreamDecoder).decodeStream [callChunk]))
      (String.join ((chunkFragments 0 [callChunk]).filterMap ToolCallFragment.arguments)) := by
  have hindex : ∀ frame ∈ closedOnce, responsesOutputIndex frame = 0 := by decide +kernel
  have hsent : WellSent closedOnce fun _ => "[1]" := by
    refine wellSent_zero hindex ?_
    rw [callFrames_closedOnce]
    refine ⟨?_, by decide⟩
    rintro f (_ | ⟨_, _ | ⟨_, ⟨⟩⟩⟩)
    · trivial
    · exact rfl
  have hclosed : ∀ i, callFrames i closedOnce ≠ [] →
      ClosedOnce "[1]" (callFrames i closedOnce) := by
    intro i hi
    by_cases hzero : i = 0
    · rw [hzero, callFrames_closedOnce]
      exact ⟨by decide, by decide +kernel⟩
    · exact absurd (callFrames_eq_nil hindex hzero) hi
  have hboth := decoded_once_iff "" closedOnce (fun _ => "[1]") [callChunk]
  exact ⟨(hboth.1 hsent).mpr hclosed, hboth.2 0 (by decide +kernel)⟩

def repeatedDone : List Json := [addedFrame 0 "", doneFrame 0 "[1]", doneFrame 0 "[1]"]

/-- An upstream that repeats its `done` frame has the arguments out twice. -/
theorem repeated_done_repeats :
    ¬ ∀ (model : String) (frames : List Json) (arguments : ℕ → String),
      WellSent frames arguments →
        ∀ i, callFrames i frames ≠ [] →
          DecodedOnce
            (callEvents i (({ model := model } : OpenAiResponsesDecoder).decodeStream frames))
            (arguments i) := by
  intro hall
  have hframes : callFrames 0 repeatedDone =
      [.opened ⟨0, "call_1", "get_weather"⟩ "", .done "[1]", .done "[1]"] := by decide +kernel
  have hindex : ∀ frame ∈ repeatedDone, responsesOutputIndex frame = 0 := by decide +kernel
  have hsent : WellSent repeatedDone fun _ => "[1]" := by
    refine wellSent_zero hindex ?_
    rw [hframes]
    refine ⟨?_, by decide⟩
    rintro f (_ | ⟨_, _ | ⟨_, ⟨⟩⟩⟩)
    · exact rfl
    · exact rfl
  have honce := hall "" repeatedDone _ hsent 0 (by rw [hframes]; exact List.cons_ne_nil _ _)
  have hends : (callEvents 0 (({ model := "" } : OpenAiResponsesDecoder).decodeStream
      repeatedDone)).countP CallEvent.isEnd = 2 := by decide +kernel
  have hle := honce.ends
  omega

end ToolArgs

end Switchback
