import Switchback.Core.Ir

/-!
# The exact-request cache key

The key is the digest of the serialized fingerprint of a request.  Serialization and digest are
parameters; what is said of two requests assumes that the two do not collide on them.
-/

namespace Switchback

open Lib

/-- A message without its cache breakpoint, which is transport metadata. -/
structure FingerprintMessage where
  role : Role
  content : List ContentPart

def FingerprintMessage.of (message : Message) : FingerprintMessage where
  role := message.role
  content := message.content

/-- What of a request is hashed. -/
structure ExactRequestFingerprint where
  model : String
  system : Option String
  messages : List FingerprintMessage
  tools : List ToolSpec
  responseFormat : Option ResponseFormat
  stream : Bool
  maxOutputTokens : Option ℕ
  temperature : Option F32
  priority : Priority
  privacyClass : PrivacyClass
  metadata : OrdMap String String
  tenant : Option String
  project : Option String
  passthrough : List (String × Json)

def ExactRequestFingerprint.of (req : AiRequest) : ExactRequestFingerprint where
  model := req.model
  system := req.system
  messages := req.messages.map FingerprintMessage.of
  tools := req.tools
  responseFormat := req.responseFormat
  stream := req.stream
  maxOutputTokens := req.maxOutputTokens
  temperature := req.temperature
  priority := req.priority
  privacyClass := req.privacyClass
  metadata := req.metadata
  tenant := req.tenant
  project := req.project
  passthrough := req.passthrough

inductive CacheLayer where
  | exactRequest
  | contextArtifact
  | toolResult
  | providerResponse
  | harnessExecution
  | negativeFailure

structure CacheKey where
  version : String
  layer : CacheLayer
  key : String

def cacheKeyVersion : String := "execution-cache-key/v1"

section

variable (toVec : ExactRequestFingerprint → ByteArray) (digest : ByteArray → String)

/-- The key of a request: the hexadecimal digest of its serialized fingerprint. -/
def CacheKey.exactRequest (req : AiRequest) : CacheKey where
  version := cacheKeyVersion
  layer := .exactRequest
  key := digest (toVec (ExactRequestFingerprint.of req))

/-- Neither the serialization nor the digest maps the two requests together. -/
structure NoCollision (a b : AiRequest) : Prop where
  bytes : toVec (.of a) = toVec (.of b) →
    ExactRequestFingerprint.of a = ExactRequestFingerprint.of b
  hash : digest (toVec (.of a)) = digest (toVec (.of b)) → toVec (.of a) = toVec (.of b)

end

namespace AiRequest

/-- Messages with the same roles and contents; cache breakpoints may differ. -/
def SameMessages (a b : AiRequest) : Prop :=
  a.messages.map (fun m => (m.role, m.content)) = b.messages.map fun m => (m.role, m.content)

/-- The two requests agree on every field the fingerprint reads. -/
structure SameMaterial (a b : AiRequest) : Prop where
  model : a.model = b.model
  system : a.system = b.system
  messages : a.SameMessages b
  tools : a.tools = b.tools
  responseFormat : a.responseFormat = b.responseFormat
  stream : a.stream = b.stream
  maxOutputTokens : a.maxOutputTokens = b.maxOutputTokens
  temperature : a.temperature = b.temperature
  priority : a.priority = b.priority
  privacyClass : a.privacyClass = b.privacyClass
  metadata : a.metadata = b.metadata
  tenant : a.tenant = b.tenant
  project : a.project = b.project
  passthrough : a.passthrough = b.passthrough

/-- The two requests agree on every field an upstream body is built from, cache breakpoints
apart. -/
structure SameCall (a b : AiRequest) : Prop where
  model : a.model = b.model
  system : a.system = b.system
  messages : a.SameMessages b
  tools : a.tools = b.tools
  serverTools : a.serverTools = b.serverTools
  responseFormat : a.responseFormat = b.responseFormat
  maxOutputTokens : a.maxOutputTokens = b.maxOutputTokens
  temperature : a.temperature = b.temperature
  passthrough : a.passthrough = b.passthrough
  protocolPassthrough : a.protocolPassthrough = b.protocolPassthrough

theorem map_fingerprintMessage_eq_iff {a b : AiRequest} :
    a.messages.map FingerprintMessage.of = b.messages.map FingerprintMessage.of ↔
      a.SameMessages b := by
  have hpair : ∀ l : List Message, l.map (fun m => (m.role, m.content)) =
      (l.map FingerprintMessage.of).map fun f => (f.role, f.content) := by
    intro l
    rw [List.map_map]
    rfl
  have hinj : Function.Injective fun f : FingerprintMessage => (f.role, f.content) := by
    rintro ⟨role, content⟩ ⟨role', content'⟩ h
    simpa using h
  unfold SameMessages
  rw [hpair, hpair]
  exact (List.map_injective_iff.mpr hinj).eq_iff.symm

theorem fingerprint_eq_iff {a b : AiRequest} :
    ExactRequestFingerprint.of a = ExactRequestFingerprint.of b ↔ a.SameMaterial b := by
  constructor
  · intro h
    simp only [ExactRequestFingerprint.of, ExactRequestFingerprint.mk.injEq] at h
    obtain ⟨h1, h2, h3, h4, h5, h6, h7, h8, h9, h10, h11, h12, h13, h14⟩ := h
    exact ⟨h1, h2, map_fingerprintMessage_eq_iff.mp h3, h4, h5, h6, h7, h8, h9, h10, h11, h12,
      h13, h14⟩
  · rintro ⟨h1, h2, h3, h4, h5, h6, h7, h8, h9, h10, h11, h12, h13, h14⟩
    simp only [ExactRequestFingerprint.of, ExactRequestFingerprint.mk.injEq]
    exact ⟨h1, h2, map_fingerprintMessage_eq_iff.mpr h3, h4, h5, h6, h7, h8, h9, h10, h11, h12,
      h13, h14⟩

/-- A call is the material the two share together with the two fields the fingerprint leaves
out. -/
theorem SameMaterial.sameCall_iff {a b : AiRequest} (h : a.SameMaterial b) :
    a.SameCall b ↔
      a.serverTools = b.serverTools ∧ a.protocolPassthrough = b.protocolPassthrough := by
  constructor
  · intro hcall
    exact ⟨hcall.serverTools, hcall.protocolPassthrough⟩
  · rintro ⟨htools, hpass⟩
    exact ⟨h.model, h.system, h.messages, h.tools, htools, h.responseFormat, h.maxOutputTokens,
      h.temperature, h.passthrough, hpass⟩

end AiRequest

variable {toVec : ExactRequestFingerprint → ByteArray} {digest : ByteArray → String}

theorem CacheKey.exactRequest_eq_iff {a b : AiRequest} (h : NoCollision toVec digest a b) :
    CacheKey.exactRequest toVec digest a = CacheKey.exactRequest toVec digest b ↔
      a.SameMaterial b := by
  rw [← AiRequest.fingerprint_eq_iff]
  simp only [CacheKey.exactRequest, CacheKey.mk.injEq, true_and]
  constructor
  · intro hkey
    exact h.bytes (h.hash hkey)
  · intro hsame
    rw [hsame]

/-- **Equal keys mean equal calls exactly when no two requests of the same material differ in
server tools or protocol passthrough**; and equal messages, cache breakpoints included, exactly
when they do not differ in these either. -/
theorem exactRequest_separates_iff (a b : AiRequest) (h : NoCollision toVec digest a b) :
    ((CacheKey.exactRequest toVec digest a = CacheKey.exactRequest toVec digest b →
        a.SameCall b) ↔
      (a.SameMaterial b →
        a.serverTools = b.serverTools ∧ a.protocolPassthrough = b.protocolPassthrough)) ∧
    ((CacheKey.exactRequest toVec digest a = CacheKey.exactRequest toVec digest b →
        a.SameCall b ∧ a.messages = b.messages) ↔
      (a.SameMaterial b →
        (a.serverTools = b.serverTools ∧ a.protocolPassthrough = b.protocolPassthrough) ∧
        a.messages = b.messages)) := by
  rw [CacheKey.exactRequest_eq_iff h]
  constructor
  · exact forall_congr' fun hsame => hsame.sameCall_iff
  · exact forall_congr' fun hsame => and_congr_left fun _ => hsame.sameCall_iff

/-! ### Two requests -/

/-- A request of one user message. -/
def summarize (model : String) : AiRequest where
  id := "req_a"
  model := model
  messages := [{ role := .user, content := [.text "summarize this"] }]
  tenant := some "tenant-a"
  project := some "project-a"

/-- What follows the model in the serialized fingerprint of `summarize model`. -/
def summarizeRest : String :=
  "\",\"system\":null,\"messages\":[\x7b\"role\":\"user\"," ++
    "\"content\":[\x7b\"type\":\"text\",\"text\":\"summarize this\"\x7d]\x7d],\"tools\":[]," ++
    "\"response_format\":null,\"stream\":false,\"max_output_tokens\":null," ++
    "\"temperature\":null,\"priority\":\"normal\",\"privacy_class\":\"standard\"," ++
    "\"metadata\":\x7b\x7d,\"tenant\":\"tenant-a\",\"project\":\"project-a\"," ++
    "\"passthrough\":\x7b\x7d\x7d"

/-- The serialization of the fingerprint of `summarize model`, for a name that needs no escape. -/
def summarizeJson (model : String) : String := "\x7b\"model\":\"" ++ model ++ summarizeRest

/-- The serialization on the fingerprints of `summarize`. -/
def sampleToVec (material : ExactRequestFingerprint) : ByteArray :=
  (summarizeJson material.model).toUTF8

/-- The digest of the two serialized fingerprints. -/
def sampleDigest (bytes : ByteArray) : String :=
  if bytes.data = (summarizeJson "auto/cheap").toUTF8.data then
    "704671e0f68dfbefdec03a8f9e8c8a1b5e2fd825e2bedc13128647e0fb6b2539"
  else if bytes.data = (summarizeJson "auto/fast").toUTF8.data then
    "17c514a156a4a0bcc11a47ae126ed6c6a93f57a9a6f838d28d887799bd7c1153"
  else ""

/-- The theorem at two requests for different models. -/
theorem exactRequest_separates_models :
    CacheKey.exactRequest sampleToVec sampleDigest (summarize "auto/cheap") ≠
        CacheKey.exactRequest sampleToVec sampleDigest (summarize "auto/fast") ∧
      (CacheKey.exactRequest sampleToVec sampleDigest (summarize "auto/cheap") =
          CacheKey.exactRequest sampleToVec sampleDigest (summarize "auto/fast") →
        (summarize "auto/cheap").SameCall (summarize "auto/fast")) := by
  have hbytes : (summarizeJson "auto/fast").toUTF8 ≠ (summarizeJson "auto/cheap").toUTF8 := by
    intro h
    have htext := String.toByteArray_inj.mp h
    rw [summarizeJson, summarizeJson, String.append_left_inj, String.append_right_inj] at htext
    exact absurd htext (by decide)
  have hcheap : sampleDigest (sampleToVec (.of (summarize "auto/cheap"))) =
      "704671e0f68dfbefdec03a8f9e8c8a1b5e2fd825e2bedc13128647e0fb6b2539" := if_pos rfl
  have hfast : sampleDigest (sampleToVec (.of (summarize "auto/fast"))) =
      "17c514a156a4a0bcc11a47ae126ed6c6a93f57a9a6f838d28d887799bd7c1153" :=
    (if_neg fun h => hbytes (ByteArray.ext h)).trans (if_pos rfl)
  have hdigest : sampleDigest (sampleToVec (.of (summarize "auto/cheap"))) ≠
      sampleDigest (sampleToVec (.of (summarize "auto/fast"))) := by
    rw [hcheap, hfast]
    decide
  have hno : NoCollision sampleToVec sampleDigest (summarize "auto/cheap")
      (summarize "auto/fast") :=
    ⟨fun h => absurd h.symm hbytes, fun h => absurd h hdigest⟩
  refine ⟨?_, (exactRequest_separates_iff _ _ hno).1.mpr ?_⟩
  · intro h
    simp only [CacheKey.exactRequest, CacheKey.mk.injEq, true_and] at h
    exact hdigest h
  · intro hsame
    exact absurd hsame.model (by decide)

/-- A web search the provider runs. -/
def webSearch : ServerToolSpec where
  protocol := .anthropic
  kind := "web_search_20250305"
  config := Json.mkObj [("type", .str "web_search_20250305"), ("name", .str "web_search")]

/-- Requests with and without a server tool, and with and without a thinking budget for the
provider, have one key. -/
theorem exactRequest_ignores_serverTools :
    (CacheKey.exactRequest sampleToVec sampleDigest (summarize "auto/cheap") =
        CacheKey.exactRequest sampleToVec sampleDigest
          { summarize "auto/cheap" with serverTools := [webSearch] } ∧
      ¬ (summarize "auto/cheap").SameCall
          { summarize "auto/cheap" with serverTools := [webSearch] }) ∧
    (CacheKey.exactRequest sampleToVec sampleDigest (summarize "auto/cheap") =
        CacheKey.exactRequest sampleToVec sampleDigest
          { summarize "auto/cheap" with
            protocolPassthrough := OrdMap.ofList
              [("anthropic", [("top_k", Json.ofNat 1)])] } ∧
      ¬ (summarize "auto/cheap").SameCall
          { summarize "auto/cheap" with
            protocolPassthrough := OrdMap.ofList
              [("anthropic", [("top_k", Json.ofNat 1)])] }) := by
  refine ⟨⟨rfl, fun h => ?_⟩, rfl, fun h => ?_⟩
  · exact absurd h.serverTools (by decide)
  · exact absurd h.protocolPassthrough (by decide)

end Switchback
