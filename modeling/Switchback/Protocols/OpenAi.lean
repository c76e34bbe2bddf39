import Switchback.Core.Ir

/-!
# OpenAI Chat Completions

The upstream half of the protocol: the stream of chunks.
-/

namespace Switchback

open Lib

/-! ### Shared readers -/

/-- Energy telemetry, when there is any. -/
def parseEnergyUsage (value : Option Json) : Option EnergyUsage := do
  let value ← value
  let _ ← value.asObject
  let energy : EnergyUsage :=
    { energyJoules := (value.get "energy_joules").bind Json.asF64
      energyKwh := (value.get "energy_kwh").bind Json.asF64
      durationSeconds := (value.get "duration_seconds").bind Json.asF64
      measurementAvailable := (value.get "measurement_available").bind Json.asBool
      attributionMethod := value.getStr "attribution_method"
      energyKwhConsumed := (value.get "energy_kwh_consumed").bind Json.asF64
      energyKwhCharged := (value.get "energy_kwh_charged").bind Json.asF64
      accountingMethod := value.getStr "accounting_method"
      totalCostUsd := (value.get "total_cost_usd").bind Json.asF64 }
  if energy.hasMeasuredEnergy || energy.durationSeconds.isSome ||
      energy.measurementAvailable.isSome || energy.attributionMethod.isSome ||
      energy.accountingMethod.isSome || energy.totalCostUsd.isSome then
    some energy
  else none

/-- The members that are present. -/
def energyUsageJson (energy : EnergyUsage) : Json :=
  Json.mkObj (List.filterMap (fun p => p.2.map fun value => (p.1, value))
    [("energy_joules", energy.energyJoules.map Json.ofFloat),
      ("energy_kwh", energy.energyKwh.map Json.ofFloat),
      ("duration_seconds", energy.durationSeconds.map Json.ofFloat),
      ("measurement_available", energy.measurementAvailable.map Json.bool),
      ("attribution_method", energy.attributionMethod.map Json.str),
      ("energy_kwh_consumed", energy.energyKwhConsumed.map Json.ofFloat),
      ("energy_kwh_charged", energy.energyKwhCharged.map Json.ofFloat),
      ("accounting_method", energy.accountingMethod.map Json.str),
      ("total_cost_usd", energy.totalCostUsd.map Json.ofFloat)])

def ImageDetail.parse : String → Except String ImageDetail
  | "low" => .ok .low
  | "high" => .ok .high
  | "auto" => .ok .auto
  | "original" => .ok .original
  | other => .error s!"unsupported image detail `{other}`"

def parseImageDetail : Option String → Except String (Option ImageDetail)
  | none => .ok none
  | some value => (ImageDetail.parse value).map some

def parseOpenAiContentPart (part : Json) : Except String ContentPart :=
  match part.getStr "type" with
  | some "text" =>
      match part.getStr "text" with
      | some text => .ok (.text text)
      | none => .error "message text part missing string `text`"
  | some "image_url" =>
      match part.get "image_url" with
      | none => .error "OpenAI image_url part missing `image_url`"
      | some imageUrl => do
          let detail ← parseImageDetail
            (((imageUrl.get "detail").or (part.get "detail")).bind Json.asStr)
          match imageUrl with
          | .str url => .ok (ContentPart.imageUrl url detail)
          | .obj _ =>
              match imageUrl.getStr "url" with
              | some url => .ok (ContentPart.imageUrl url detail)
              | none => .error "OpenAI image_url part missing string `image_url.url`"
          | _ => .error "OpenAI image_url part must be a string or object"
  | some other => .error s!"unsupported OpenAI content part `{other}`"
  | none => .error "message content part missing string `type`"

def parseOpenAiContentParts : Option Json → Except String (List ContentPart)
  | none | some .null => .ok []
  | some (.str text) => .ok [.text text]
  | some (.arr parts) => parts.mapM parseOpenAiContentPart
  | some _ => .error "message content must be a string, null, or array"

def rejectImageParts (parts : List ContentPart) (place : String) : Except String Unit :=
  if parts.any ContentPart.isImage then .error s!"{place} cannot contain image content" else .ok ()

def parseTextContent (content : Option Json) : Except String String := do
  let parts ← parseOpenAiContentParts content
  rejectImageParts parts "OpenAI non-user messages"
  return partsText parts

def finishReasonFromOpenAi : Option String → FinishReason
  | some "stop" => .stop
  | some "length" => .length
  | some "tool_calls" => .toolCalls
  | some "content_filter" => .contentFilter
  | some "error" => .error
  | _ => .stop

/-- Tool arguments as JSON, or as text when they are not. -/
def parseToolArgs (fromStr : String → Except String Json) (arguments : String) : Json :=
  match fromStr arguments with
  | .ok value => value
  | .error _ => .str arguments

def parseOpenAiToolCall (fromStr : String → Except String Json) (toolCall : Json) :
    Except String ContentPart :=
  match toolCall.getStr "id" with
  | none => .error "tool call missing string `id`"
  | some id =>
      match (toolCall.get "function").bind Json.asObject with
      | none => .error "tool call missing object `function`"
      | some function =>
          match (Json.obj function).getStr "name" with
          | none => .error "tool call missing string `function.name`"
          | some name =>
              match (Json.obj function).getStr "arguments" with
              | none => .error "tool call missing string `function.arguments`"
              | some arguments => .ok (.toolUse id name (parseToolArgs fromStr arguments))

/-- The token counts of a usage object, with the energy telemetry beside or inside it. -/
def openAiUsage (body : Json) : Usage :=
  let usage := ((body.get "usage").filter fun usage => usage.asObject.isSome)
  { inputTokens := (usage.bind (Json.getU64 "prompt_tokens")).getD 0
    outputTokens := (usage.bind (Json.getU64 "completion_tokens")).getD 0
    energy := (parseEnergyUsage (body.get "energy")).or
      (parseEnergyUsage (usage.bind (Json.get "energy"))) }

/-! ### The stream -/

/-- One entry of a chunk's `tool_calls`. -/
structure ToolCallFragment where
  index : ℕ
  id : String
  name : String
  arguments : Option String

/-- The defaults stand for members that are absent; an index beyond 32 bits is zero. -/
def toolCallFragment (toolCall : Json) : ToolCallFragment where
  index := ((toolCall.getU64 "index").filter fun value => value < 2 ^ 32).getD 0
  id := (toolCall.getStr "id").getD ""
  name := ((toolCall.get "function").bind (Json.getStr "name")).getD ""
  arguments := (toolCall.get "function").bind (Json.getStr "arguments")

/-- What the decoder reads of a chunk's first choice. -/
structure ChunkChoice where
  content : String
  toolCalls : List ToolCallFragment
  finish : Option FinishReason

def chunkChoice (chunk : Json) : Option ChunkChoice :=
  ((chunk.getArray "choices").bind List.head?).map fun choice =>
    { content := ((choice.get "delta").bind (Json.getStr "content")).getD ""
      toolCalls := (((choice.get "delta").bind (Json.getArray "tool_calls")).getD []).map
        toolCallFragment
      finish :=
        if ((choice.get "finish_reason").getD .null).isNull then none
        else some (finishReasonFromOpenAi (choice.getStr "finish_reason")) }

structure OpenAiStreamDecoder where
  started : Bool := false
  ended : Bool := false
  seenToolCalls : List ℕ := []

namespace OpenAiStreamDecoder

/-- The usage event of a chunk that carries usage or energy. -/
def usageEvents (chunk : Json) : List AiStreamEvent :=
  let usage := ((chunk.get "usage").filter fun usage => usage.asObject.isSome)
  if usage.isSome || (openAiUsage chunk).energy.isSome then [.usageDelta (openAiUsage chunk)]
  else []

/-- A fragment of a call that was not seen before announces it. -/
def fragmentEvents (seen : List ℕ) (f : ToolCallFragment) : List AiStreamEvent :=
  (if f.index ∈ seen then []
    else [.toolCallStart { index := f.index, id := f.id, name := f.name }]) ++
    f.arguments.elim [] fun arguments => [.toolCallArgsDelta f.index arguments]

def seeIndex (seen : List ℕ) (index : ℕ) : List ℕ :=
  if index ∈ seen then seen else seen ++ [index]

/-- The loop over the fragments of a chunk. -/
def toolCallEvents (seen : List ℕ) : List ToolCallFragment → List AiStreamEvent × List ℕ
  | [] => ([], seen)
  | f :: fragments =>
      let (events, seen') := toolCallEvents (seeIndex seen f.index) fragments
      (fragmentEvents seen f ++ events, seen')

def decode (d : OpenAiStreamDecoder) (chunk : Json) : List AiStreamEvent × OpenAiStreamDecoder :=
  let start : List AiStreamEvent :=
    if d.started then []
    else [.messageStart ((chunk.getStr "id").getD "") ((chunk.getStr "model").getD "")]
  let d := { d with started := true }
  match chunkChoice chunk with
  | none => (start ++ usageEvents chunk, d)
  | some choice =>
      let text : List AiStreamEvent :=
        if choice.content = "" then [] else [.textDelta choice.content]
      let (tools, seen) := toolCallEvents d.seenToolCalls choice.toolCalls
      let stop : List AiStreamEvent := choice.finish.elim [] fun finish => [.messageEnd finish]
      (start ++ usageEvents chunk ++ text ++ tools ++ stop,
        { d with seenToolCalls := seen, ended := d.ended || choice.finish.isSome })

/-- The end of the upstream. -/
def finish (d : OpenAiStreamDecoder) : List AiStreamEvent :=
  if d.started && !d.ended then [.messageEnd .stop] else []

/-- The events of a sequence of chunks and of the end after it. -/
def decodeStream (d : OpenAiStreamDecoder) : List Json → List AiStreamEvent
  | [] => d.finish
  | chunk :: chunks => (d.decode chunk).1 ++ (d.decode chunk).2.decodeStream chunks

end OpenAiStreamDecoder

end Switchback
