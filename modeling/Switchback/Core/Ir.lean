import Switchback.Lib.Json
import Switchback.Lib.Text

/-!
# The canonical request, response and stream

The provider-agnostic representation that every inbound protocol is translated into and every
adapter speaks.
-/

namespace Switchback

open Lib

/-! ### Errors -/

/-- What an upstream failure means for fallback and cooldown. -/
inductive ErrorClass where
  | authentication
  | authorization
  | rateLimited
  | quotaExceeded
  | providerOverloaded
  | timeout
  | network
  | invalidRequest
  | contextTooLong
  | unsupportedCapability
  | safetyBlocked
  | serverError
  | streamInterrupted
  | unknown
  deriving DecidableEq

namespace ErrorClass

/-- Should the next account, then the next target, be tried? -/
def shouldFallback : ErrorClass → Bool
  | invalidRequest | safetyBlocked => false
  | _ => true

/-- Surface verbatim to the client. -/
def isClientError : ErrorClass → Bool
  | invalidRequest | contextTooLong | unsupportedCapability => true
  | _ => false

/-- The class as it goes out. -/
def asStr : ErrorClass → String
  | authentication => "authentication"
  | authorization => "authorization"
  | rateLimited => "rate_limited"
  | quotaExceeded => "quota_exceeded"
  | providerOverloaded => "provider_overloaded"
  | timeout => "timeout"
  | network => "network"
  | invalidRequest => "invalid_request"
  | contextTooLong => "context_too_long"
  | unsupportedCapability => "unsupported_capability"
  | safetyBlocked => "safety_blocked"
  | serverError => "server_error"
  | streamInterrupted => "stream_interrupted"
  | unknown => "unknown"

/-- The status that a client gets. -/
def httpStatus : ErrorClass → ℕ
  | authentication => 401
  | authorization => 403
  | rateLimited | quotaExceeded | providerOverloaded => 429
  | timeout => 504
  | network | serverError | streamInterrupted | unknown => 502
  | invalidRequest => 400
  | contextTooLong => 413
  | unsupportedCapability => 422
  | safetyBlocked => 451

end ErrorClass

/-! ### Content -/

/-- Who says a message. -/
inductive Role where
  | system
  | user
  | assistant
  | tool
  deriving DecidableEq

/-- How closely an image is to be looked at. -/
inductive ImageDetail where
  | low
  | high
  | auto
  | original
  deriving DecidableEq

/-- The ways an image can be given. -/
inductive ImageSourceKind where
  | inlineBase64
  | remoteUrl
  | providerFileRef
  deriving DecidableEq

/-- The kind as reasons name it. -/
def ImageSourceKind.asStr : ImageSourceKind → String
  | inlineBase64 => "inline_base64"
  | remoteUrl => "remote_url"
  | providerFileRef => "provider_file_ref"

/-- The declaration order of the source, which its ordered sets iterate in. -/
def ImageSourceKind.all : List ImageSourceKind := [inlineBase64, remoteUrl, providerFileRef]

/-- Where the bytes of an image are. -/
inductive ImageSource where
  | inlineBase64 (mediaType data : String)
  | remoteUrl (url : String)
  | providerFileRef (provider : Option String) (id : String)
  deriving DecidableEq

namespace ImageSource

/-- The way an image is given. -/
def kind : ImageSource → ImageSourceKind
  | inlineBase64 .. => .inlineBase64
  | remoteUrl .. => .remoteUrl
  | providerFileRef .. => .providerFileRef

/-- An image must have a media type of images and some data, a web address, or an id. -/
def validate : ImageSource → Except String Unit
  | inlineBase64 mediaType data =>
      if Text.trim mediaType = "" then .error "inline image missing media_type"
      else if !Text.startsWith "image/" mediaType then
        .error s!"inline image media_type `{mediaType}` is not image/*"
      else if Text.trim data = "" then .error "inline image missing base64 data"
      else .ok ()
  | remoteUrl url => if Text.trim url = "" then .error "remote image URL is empty" else .ok ()
  | providerFileRef provider id =>
      if provider = some "" then .error "provider file image has empty provider scope"
      else if Text.trim id = "" then .error "provider file image missing id"
      else .ok ()

end ImageSource

/-- A part of what a tool gave back. -/
inductive ToolResultContentPart where
  | text (text : String)
  | image (source : ImageSource) (detail : Option ImageDetail)
  deriving DecidableEq

/-- Only images can be wrong. -/
def ToolResultContentPart.validate : ToolResultContentPart → Except String Unit
  | image source _ => source.validate
  | text _ => .ok ()

/-- One typed piece of message content. -/
inductive ContentPart where
  | text (text : String)
  | image (source : ImageSource) (detail : Option ImageDetail)
  | toolUse (id name : String) (args : Json)
  | toolResult (toolUseId content : String) (contentParts : List ToolResultContentPart)
      (isError : Bool)
  | reasoning (text : String) (signature : Option String)
  | citation (url : String) (title snippet : Option String)
  | serverToolUse (id name : String) (args : Json)
  | serverToolResult (id name content : String)
  deriving DecidableEq

namespace ContentPart

/-- The media type and the payload of a base64 `data:` URL. -/
def splitBase64DataUrl (url : String) : Option (String × String) := do
  let rest ← Text.stripLit "data:" url
  let (mediaType, data) ← Text.splitOnce ";base64," rest
  if mediaType = "" ∨ data = "" then none else some (mediaType, data)

/-- An image by its URL; a data URL holds the bytes. -/
def imageUrl (url : String) (detail : Option ImageDetail) : ContentPart :=
  match splitBase64DataUrl url with
  | some (mediaType, data) => .image (.inlineBase64 mediaType data) detail
  | none => .image (.remoteUrl url) detail

/-- An image by its bytes. -/
def imageBase64 (mediaType data : String) : ContentPart :=
  .image (.inlineBase64 mediaType data) none

/-- An image as a part of a message. -/
def isImage : ContentPart → Bool
  | image .. => true
  | _ => false

/-- A call of a tool. -/
def isToolUse : ContentPart → Bool
  | toolUse .. => true
  | _ => false

/-- The text of a part that is one. -/
def asText : ContentPart → Option String
  | text t => some t
  | _ => none

/-- How the image of a part is given. -/
def imageSourceKind : ContentPart → Option ImageSourceKind
  | image source _ => some source.kind
  | _ => none

/-- The images in a part, also those in a tool result, must be valid. -/
def validate : ContentPart → Except String Unit
  | image source _ => source.validate
  | toolResult _ _ contentParts _ => contentParts.forM ToolResultContentPart.validate
  | _ => .ok ()

end ContentPart

/-- Up to here a prompt may be cached. -/
structure CacheHint where
  ttlSeconds : Option ℕ
  deriving DecidableEq

/-- A message in canonical form. -/
structure Message where
  role : Role
  content : List ContentPart
  cacheHint : Option CacheHint := none
  deriving DecidableEq

/-- The plain text of a list of parts. -/
def partsText (parts : List ContentPart) : String :=
  String.join (parts.filterMap ContentPart.asText)

/-- The texts of a message, put together. -/
def Message.text (m : Message) : String := partsText m.content

/-! ### Requests -/

/-- A tool that the client runs. -/
structure ToolSpec where
  name : String
  description : Option String
  parameters : Json
  deferLoading : Bool
  deriving DecidableEq

/-- The protocols with tools that the server runs. -/
inductive ServerToolProtocol where
  | openAiResponses
  | anthropic
  deriving DecidableEq, Inhabited

/-- The protocol as it is stored. -/
def ServerToolProtocol.asStr : ServerToolProtocol → String
  | openAiResponses => "openai_responses"
  | anthropic => "anthropic"

/-- All of them. -/
def ServerToolProtocol.all : List ServerToolProtocol := [openAiResponses, anthropic]

/-- A tool that the upstream runs. -/
structure ServerToolSpec where
  protocol : ServerToolProtocol
  kind : String
  config : Json
  deriving DecidableEq, Inhabited

/-- The form that an answer must have. -/
inductive ResponseFormat where
  | text
  | jsonObject
  | jsonSchema (name : String) (schema : Json) (strict : Bool)
  deriving DecidableEq

/-- How urgent a request is. -/
inductive Priority where
  | low
  | normal
  | high
  deriving DecidableEq

/-- How private a request is. -/
inductive PrivacyClass where
  | standard
  | sensitive
  | confidential
  deriving DecidableEq

/-- The canonical request. -/
structure AiRequest where
  id : String
  model : String
  system : Option String := none
  messages : List Message
  tools : List ToolSpec := []
  serverTools : List ServerToolSpec := []
  responseFormat : Option ResponseFormat := none
  stream : Bool := false
  maxOutputTokens : Option ℕ := none
  temperature : Option F32 := none
  priority : Priority := .normal
  privacyClass : PrivacyClass := .standard
  metadata : OrdMap String String := OrdMap.empty
  tenant : Option String := none
  project : Option String := none
  passthrough : List (String × Json) := []
  protocolPassthrough : OrdMap String (List (String × Json)) := OrdMap.empty
  systemCacheHint : Option CacheHint := none
  toolsCacheHint : Option CacheHint := none
  deriving DecidableEq

namespace AiRequest

/-- The request declares tools. -/
def requiresTools (req : AiRequest) : Bool := !req.tools.isEmpty

/-- The request declares tools of the server. -/
def requiresServerTools (req : AiRequest) : Bool := !req.serverTools.isEmpty

/-- The protocols of the requested server tools, each once and in order. -/
def requiredServerToolProtocols (req : AiRequest) : List ServerToolProtocol :=
  ServerToolProtocol.all.filter fun p => req.serverTools.any fun tool => tool.protocol = p

/-- All content parts of the conversation. -/
def parts (req : AiRequest) : List ContentPart := req.messages.flatMap Message.content

/-- The images that are parts of messages. -/
def imageCount (req : AiRequest) : ℕ := (req.parts.filter ContentPart.isImage).length

/-- The request has an image. -/
def requiresVision (req : AiRequest) : Bool := 0 < req.imageCount

/-- The kinds of image source in the request, each once and in order. -/
def requiredImageSources (req : AiRequest) : List ImageSourceKind :=
  ImageSourceKind.all.filter fun k => req.parts.any fun part => part.imageSourceKind = some k

/-- Every image part becomes the text `marker`. -/
def stripImageParts (marker : String) (req : AiRequest) : AiRequest :=
  { req with
    messages := req.messages.map fun message =>
      { message with
        content := message.content.map fun part => if part.isImage then .text marker else part } }

/-- Every part of every message must be valid. -/
def validateCanonical (req : AiRequest) : Except String Unit := req.parts.forM ContentPart.validate

end AiRequest

/-! ### Responses and streams -/

/-- Why a response ends. -/
inductive FinishReason where
  | stop
  | length
  | toolCalls
  | contentFilter
  | error
  deriving DecidableEq

/-- Energy telemetry reported by a provider. -/
structure EnergyUsage where
  energyJoules : Option F64 := none
  energyKwh : Option F64 := none
  durationSeconds : Option F64 := none
  measurementAvailable : Option Bool := none
  attributionMethod : Option String := none
  energyKwhConsumed : Option F64 := none
  energyKwhCharged : Option F64 := none
  accountingMethod : Option String := none
  totalCostUsd : Option F64 := none
  deriving DecidableEq

/-- Some energy was measured. -/
def EnergyUsage.hasMeasuredEnergy (e : EnergyUsage) : Bool :=
  e.measurementAvailable != some false &&
    (e.energyJoules.isSome || e.energyKwh.isSome || e.energyKwhConsumed.isSome ||
      e.energyKwhCharged.isSome)

/-- Token counts of one request. -/
structure Usage where
  inputTokens : ℕ := 0
  outputTokens : ℕ := 0
  cachedInputTokens : ℕ := 0
  reasoningTokens : ℕ := 0
  energy : Option EnergyUsage := none
  deriving DecidableEq, Inhabited

/-- The sum of a 64-bit machine. -/
def Usage.total (u : Usage) : ℕ := (u.inputTokens + u.outputTokens) % 2 ^ 64

/-- A fully assembled response. -/
structure AiResponse where
  id : String
  model : String
  message : Message
  finishReason : FinishReason
  usage : Usage
  deriving DecidableEq

/-- The start of a call of a tool. -/
structure ToolCallStart where
  index : ℕ
  id : String
  name : String
  deriving DecidableEq

/-- The normalized streaming event. -/
inductive AiStreamEvent where
  | messageStart (id model : String)
  | textDelta (text : String)
  | reasoningDelta (text : String)
  | toolCallStart (start : ToolCallStart)
  | toolCallArgsDelta (index : ℕ) (json : String)
  | toolCallEnd (index : ℕ)
  | outputImage (mediaType data : String)
  | citation (url : String) (title : Option String)
  | serverToolCall (id name status : String)
  | usageDelta (usage : Usage)
  | messageEnd (finishReason : FinishReason)
  | error (message : String) (errorClass : ErrorClass)
  deriving DecidableEq

/-- The event that ends a stream. -/
def AiStreamEvent.isEnd : AiStreamEvent → Bool
  | .messageEnd _ => true
  | _ => false

end Switchback
