import Switchback.Adapters.Boundary

/-!
# Collecting a stream

The non-streaming path collects the one streaming path.  `CollectState` holds the loop's
variables, `collectStep` is one round of it.
-/

namespace Switchback

open Lib

/-- A tool call being collected. -/
structure CollectedCall where
  id : String
  name : String
  args : String
  deriving DecidableEq

/-- The variables of the loop. -/
structure CollectState where
  content : String := ""
  reasoning : String := ""
  images : List ContentPart := []
  citations : List ContentPart := []
  serverTools : List ContentPart := []
  toolUses : OrdMap ℕ CollectedCall := OrdMap.empty
  finishReason : Option FinishReason := none
  usage : Usage := {}
  assembled : ℕ := 0

/-- The ceiling on the assembled bytes. -/
def overCap (maxBytes : Option ℕ) (assembled : ℕ) : Option AdapterError :=
  (maxBytes.filter fun max => assembled > max).map fun max =>
    { errorClass := .serverError, message := s!"response exceeded max_response_bytes ({max})" }

/-- Count `text` and go on, unless it is over the ceiling. -/
def CollectState.assemble (maxBytes : Option ℕ) (st : CollectState) (text : String)
    (next : CollectState → CollectState) : Except AdapterError CollectState :=
  let st := { st with assembled := st.assembled + Text.len text }
  match overCap maxBytes st.assembled with
  | some err => .error err
  | none => .ok (next st)

/-- One round of the loop. -/
def collectStep (maxBytes : Option ℕ) (st : CollectState) :
    AiStreamEvent → Except AdapterError CollectState
  | .textDelta text =>
      st.assemble maxBytes text fun st => { st with content := st.content ++ text }
  | .toolCallStart start =>
      .ok { st with
        toolUses := st.toolUses.insert start.index
          { id := start.id, name := start.name, args := "" } }
  | .toolCallArgsDelta index json =>
      st.assemble maxBytes json fun st =>
        { st with
          toolUses := st.toolUses.modify index fun call => { call with args := call.args ++ json } }
  | .toolCallEnd _ => .ok st
  | .usageDelta usage => .ok { st with usage := usage }
  | .messageEnd finish => .ok { st with finishReason := some finish }
  | .error message errorClass => .error { errorClass := errorClass, message := message }
  | .reasoningDelta text =>
      st.assemble maxBytes text fun st => { st with reasoning := st.reasoning ++ text }
  | .outputImage mediaType data =>
      st.assemble maxBytes data fun st =>
        { st with images := st.images ++ [ContentPart.imageBase64 mediaType data] }
  | .citation url title =>
      .ok { st with citations := st.citations ++ [.citation url title none] }
  | .serverToolCall id name status =>
      -- the call is recorded once it completes
      if status = "completed" then
        .ok { st with serverTools := st.serverTools ++ [.serverToolUse id name .null] }
      else .ok st
  | .messageStart _ _ => .ok st

/-- The loop over the items of the stream. -/
def collectLoop (maxBytes : Option ℕ) (st : CollectState) :
    List (Except AdapterError AiStreamEvent) → Except AdapterError CollectState
  | [] => .ok st
  | .error err :: _ => .error err
  | .ok event :: stream =>
      match collectStep maxBytes st event with
      | .error err => .error err
      | .ok st => collectLoop maxBytes st stream

/-- The arguments as a JSON value, or as text when they are not JSON. -/
def parseArgs (fromStr : String → Except String Json) (args : String) : Json :=
  match fromStr args with
  | .ok value => value
  | .error _ => .str args

/-- The content of the response: reasoning, then the answer, then the tool uses by index. -/
def CollectState.parts (fromStr : String → Except String Json) (st : CollectState) :
    List ContentPart :=
  (if st.reasoning = "" then [] else [ContentPart.reasoning st.reasoning none]) ++
    (if st.content = "" then [] else [ContentPart.text st.content]) ++
    st.images ++ st.citations ++ st.serverTools ++
    st.toolUses.entries.map fun p =>
      ContentPart.toolUse p.2.id p.2.name (parseArgs fromStr p.2.args)

def CollectState.response (fromStr : String → Except String Json) (st : CollectState)
    (reqId model : String) : AiResponse where
  id := reqId
  model := model
  message := { role := .assistant, content := st.parts fromStr }
  finishReason := st.finishReason.getD .stop
  usage := st.usage

/-- Collect a stream into one response. -/
def collectResponse (fromStr : String → Except String Json)
    (stream : List (Except AdapterError AiStreamEvent)) (reqId model : String)
    (maxBytes : Option ℕ) : Except AdapterError AiResponse :=
  match collectLoop maxBytes {} stream with
  | .error err => .error err
  | .ok st => .ok (st.response fromStr reqId model)

/-! ### Without a ceiling -/

/-- One round of the loop where nothing stops it. -/
def gather (st : CollectState) (event : AiStreamEvent) : CollectState :=
  match collectStep none st event with
  | .ok st => st
  | .error _ => st

section

variable (st : CollectState)

@[simp] theorem gather_messageStart (id model : String) :
    gather st (.messageStart id model) = st := rfl

@[simp] theorem gather_textDelta (text : String) :
    gather st (.textDelta text) =
      { st with content := st.content ++ text, assembled := st.assembled + Text.len text } := rfl

@[simp] theorem gather_reasoningDelta (text : String) :
    gather st (.reasoningDelta text) =
      { st with reasoning := st.reasoning ++ text, assembled := st.assembled + Text.len text } :=
  rfl

@[simp] theorem gather_toolCallStart (start : ToolCallStart) :
    gather st (.toolCallStart start) =
      { st with
        toolUses := st.toolUses.insert start.index
          { id := start.id, name := start.name, args := "" } } := rfl

@[simp] theorem gather_toolCallArgsDelta (index : ℕ) (json : String) :
    gather st (.toolCallArgsDelta index json) =
      { st with
        toolUses := st.toolUses.modify index fun call => { call with args := call.args ++ json }
        assembled := st.assembled + Text.len json } := rfl

@[simp] theorem gather_toolCallEnd (index : ℕ) : gather st (.toolCallEnd index) = st := rfl

@[simp] theorem gather_usageDelta (usage : Usage) :
    gather st (.usageDelta usage) = { st with usage := usage } := rfl

@[simp] theorem gather_messageEnd (finish : FinishReason) :
    gather st (.messageEnd finish) = { st with finishReason := some finish } := rfl

@[simp] theorem gather_outputImage (mediaType data : String) :
    gather st (.outputImage mediaType data) =
      { st with
        images := st.images ++ [ContentPart.imageBase64 mediaType data]
        assembled := st.assembled + Text.len data } := rfl

@[simp] theorem gather_citation (url : String) (title : Option String) :
    gather st (.citation url title) =
      { st with citations := st.citations ++ [.citation url title none] } := rfl

@[simp] theorem gather_serverToolCall (id name status : String) :
    gather st (.serverToolCall id name status) =
      if status = "completed" then
        { st with serverTools := st.serverTools ++ [.serverToolUse id name .null] }
      else st := by
  by_cases h : status = "completed"
  · simp [gather, collectStep, h]
  · simp [gather, collectStep, h]

@[simp] theorem gather_error (message : String) (errorClass : ErrorClass) :
    gather st (.error message errorClass) = st := rfl

end

/-- An error within the stream. -/
def AiStreamEvent.isError : AiStreamEvent → Bool
  | .error .. => true
  | _ => false

theorem collectStep_none (st : CollectState) {event : AiStreamEvent}
    (h : event.isError = false) : collectStep none st event = .ok (gather st event) := by
  cases event with
  | error message errorClass => exact absurd h (by simp [AiStreamEvent.isError])
  | serverToolCall id name status =>
    by_cases hs : status = "completed"
    · simp [gather, collectStep, hs]
    · simp [gather, collectStep, hs]
  | _ => rfl

variable {events : List AiStreamEvent} {maxBytes : Option ℕ} {st' : CollectState}

theorem collectLoop_none (st : CollectState) (h : ∀ event ∈ events, event.isError = false) :
    collectLoop none st (events.map .ok) = .ok (events.foldl gather st) := by
  induction events generalizing st with
  | nil => rfl
  | cons event events ih =>
    rw [List.map_cons, collectLoop, collectStep_none st (h event List.mem_cons_self)]
    exact ih _ fun e he => h e (List.mem_cons_of_mem event he)

theorem collectResponse_gather (fromStr : String → Except String Json)
    (h : ∀ event ∈ events, event.isError = false)
    (reqId model : String) :
    collectResponse fromStr (events.map .ok) reqId model none =
      .ok ((events.foldl gather {}).response fromStr reqId model) := by
  unfold collectResponse
  rw [collectLoop_none _ h]

theorem assemble_eq_ok {st : CollectState} {text : String}
    {next : CollectState → CollectState} (h : st.assemble maxBytes text next = .ok st') :
    st' = next { st with assembled := st.assembled + Text.len text } := by
  unfold CollectState.assemble at h
  dsimp only at h
  split at h
  · cases h
  · exact (Except.ok.inj h).symm

theorem collectStep_eq_ok {st : CollectState} {event : AiStreamEvent}
    (h : collectStep maxBytes st event = .ok st') :
    event.isError = false ∧ st' = gather st event := by
  cases event with
  | error message errorClass => cases h
  | textDelta text =>
    rw [collectStep] at h
    exact ⟨rfl, assemble_eq_ok h⟩
  | reasoningDelta text =>
    rw [collectStep] at h
    exact ⟨rfl, assemble_eq_ok h⟩
  | toolCallArgsDelta index json =>
    rw [collectStep] at h
    exact ⟨rfl, assemble_eq_ok h⟩
  | outputImage mediaType data =>
    rw [collectStep] at h
    exact ⟨rfl, assemble_eq_ok h⟩
  | serverToolCall id name status =>
    -- this round does not count bytes
    have hnone : collectStep none st (.serverToolCall id name status) = .ok st' := h
    rw [collectStep_none st rfl] at hnone
    exact ⟨rfl, (Except.ok.inj hnone).symm⟩
  | _ => exact ⟨rfl, (Except.ok.inj h).symm⟩

theorem collectLoop_eq_ok {st : CollectState}
    (h : collectLoop maxBytes st (events.map .ok) = .ok st') :
    (∀ event ∈ events, event.isError = false) ∧ st' = events.foldl gather st := by
  induction events generalizing st with
  | nil => exact ⟨by simp, (Except.ok.inj h).symm⟩
  | cons event events ih =>
    rw [List.map_cons, collectLoop] at h
    cases hstep : collectStep maxBytes st event with
    | error err => rw [hstep] at h; cases h
    | ok next =>
      rw [hstep] at h
      obtain ⟨herror, hnext⟩ := collectStep_eq_ok hstep
      obtain ⟨herrors, hst⟩ := ih h
      refine ⟨List.forall_mem_cons.2 ⟨herror, herrors⟩, ?_⟩
      rw [hst, hnext, List.foldl_cons]

theorem collectResponse_eq_ok {fromStr : String → Except String Json}
    {reqId model : String} {r : AiResponse}
    (h : collectResponse fromStr (events.map .ok) reqId model maxBytes = .ok r) :
    (∀ event ∈ events, event.isError = false) ∧
      r = (events.foldl gather {}).response fromStr reqId model := by
  unfold collectResponse at h
  cases hloop : collectLoop maxBytes {} (events.map .ok) with
  | error err => rw [hloop] at h; cases h
  | ok st =>
    rw [hloop] at h
    obtain ⟨herrors, hst⟩ := collectLoop_eq_ok hloop
    exact ⟨herrors, by rw [← hst]; exact (Except.ok.inj h).symm⟩

end Switchback
