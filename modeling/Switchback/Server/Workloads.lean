import Switchback.Core.Target
import Switchback.Ledger.UsageLedger

/-!
# Image jobs and their store

Jobs of the image workload with their events and artifacts, the store that keeps them in memory, and
the usage record of a fal job.
-/

namespace Switchback

namespace Workloads

open Lib

/-- What a workload handler answers with. -/
inductive WorkloadError where
  | invalidRequest (message : String)
  | upstream (message : String)
  | internal (message : String)

/-- What a job makes. -/
inductive WorkloadKind where
  | textGeneration
  | embedding
  | imageGeneration
  | videoGeneration
  | workflowExecution

/-- How far a job has come. -/
inductive JobStatus where
  | accepted
  | queued
  | routing
  | leased
  | running
  | artifactReady
  | succeeded
  | failed
  | cancelled
  deriving DecidableEq

/-- What an artifact is. -/
inductive ArtifactKind where
  | image
  | video
  | audio
  | file
  | thumbnail
  | metadata
  deriving DecidableEq

/-- The detail of an event. -/
abbrev Detail := OrdMap String String

/-- An entry of the log of a job. -/
structure JobEvent where
  event : String
  status : JobStatus
  createdAtMs : ℕ
  detail : Detail

/-- What is known of an artifact. -/
structure ArtifactRecord where
  artifactId : String
  jobId : String
  kind : ArtifactKind
  mediaType : String
  bytes : ℕ
  sha256 : String
  storageRef : String
  width : Option ℕ
  height : Option ℕ
  durationMs : Option ℕ
  fps : Option F64
  createdAtMs : ℕ
  retention : String
  provenance : Detail

/-- A job as clients see it. -/
structure JobRecord where
  id : String
  kind : WorkloadKind
  status : JobStatus
  target : String
  tenant : Option String
  project : Option String
  createdAtMs : ℕ
  updatedAtMs : ℕ
  routeDecision : RouteDecision
  artifacts : List ArtifactRecord
  events : List JobEvent
  promptStored : Bool

/-- What is needed to cancel a job at fal. -/
structure FalRunControl where
  providerId : String
  model : String
  requestId : String
  deriving Inhabited

/-- An artifact with its bytes. -/
structure StoredArtifact where
  record : ArtifactRecord
  bytes : List UInt8

/-- The job with one more event. -/
def JobRecord.withEvent (job : JobRecord) (status : JobStatus) (event : JobEvent) : JobRecord :=
  { job with status := status, updatedAtMs := event.createdAtMs, events := job.events ++ [event] }

/-! ### The store -/

/-- The store, which lives in memory. -/
structure WorkloadStore where
  jobs : OrdMap String JobRecord := OrdMap.empty
  artifacts : OrdMap String StoredArtifact := OrdMap.empty
  falRuns : OrdMap String FalRunControl := OrdMap.empty

namespace WorkloadStore

/-- The job with an id. -/
def job (s : WorkloadStore) (id : String) : Option JobRecord := s.jobs.get id

/-- An artifact under its own id. -/
def insertArtifact (m : OrdMap String StoredArtifact) (a : StoredArtifact) :
    OrdMap String StoredArtifact :=
  m.insert a.record.artifactId a

/-- A job with its artifacts. -/
def insertJob (s : WorkloadStore) (job : JobRecord) (artifacts : List StoredArtifact) :
    WorkloadStore :=
  { s with
    artifacts := artifacts.foldl insertArtifact s.artifacts
    jobs := s.jobs.insert job.id job }

/-- A job that runs at fal, with its control. -/
def insertFalRun (s : WorkloadStore) (job : JobRecord) (control : FalRunControl) : WorkloadStore :=
  { s with falRuns := s.falRuns.insert job.id control, jobs := s.jobs.insert job.id job }

/-- A status and its event are added to a job that is there. -/
def updateJobEvent (s : WorkloadStore) (id : String) (status : JobStatus) (event : JobEvent) :
    Except WorkloadError WorkloadStore :=
  match s.jobs.get id with
  | none => .error (.internal s!"job `{id}` disappeared")
  | some job => .ok { s with jobs := s.jobs.insert id (job.withEvent status event) }

/-- The job can no longer be cancelled. -/
def removeFalRun (s : WorkloadStore) (id : String) : WorkloadStore :=
  { s with falRuns := s.falRuns.erase id }

end WorkloadStore

/-! ### Prices -/

/-- What is counted for a price. -/
inductive PricingUnit where
  | perImage
  | perMegapixel
  | perSecond
  | perVideo
  | tokenMetered
  | credits
  | quota
  deriving DecidableEq

/-- The price of one unit. -/
structure UnitPrice where
  pricingUnit : PricingUnit
  unitPriceMicros : ℕ

/-- The area, if it fits 32 bits. -/
def megapixels (a : ArtifactRecord) : Option F64 := do
  let width ← a.width
  let height ← a.height
  if width * height < 2 ^ 32 then some (Fp.ofNat (width * height) / Fp.ofNat 1000000) else none

/-- The length in time. -/
def seconds (a : ArtifactRecord) : Option F64 :=
  a.durationMs.map fun ms => Fp.ofNat ms / Fp.ofNat 1000

/-- The sum of what every artifact counts. -/
def unitsOf (f : ArtifactRecord → Option F64) (artifacts : List ArtifactRecord) : Option F64 :=
  artifacts.foldlM (fun total a => (f a).map (total + ·)) Fp.zero

/-- The units that artifacts are billed for. -/
def mediaUnits (price : Option UnitPrice) (artifacts : List ArtifactRecord) : Option F64 :=
  price.bind fun price =>
    match price.pricingUnit with
    | .perImage => some (Fp.ofNat artifacts.length)
    | .perMegapixel => unitsOf megapixels artifacts
    | .perSecond => unitsOf seconds artifacts
    | .perVideo => some (Fp.ofNat (artifacts.countP fun a => a.kind = .video))
    | .tokenMetered | .credits | .quota => none

/-- The cost, unless the price is one for tokens. -/
def computeUnitCostMicros (price : Option UnitPrice) (units : Option F64) : Option ℕ := do
  let price ← price
  if price.pricingUnit = .tokenMetered then none
  let units ← units
  if !units.isFinite || Fp.lt units Fp.zero then none
  let micros := units.mul (Fp.ofNat price.unitPriceMicros)
  if !micros.isFinite || Fp.lt (Fp.ofNat Word.u64Max) micros then none
  some (min micros.ceilNat Word.u64Max)

/-! ### A fal job -/

/-- What a fal job is about, from its submission on. -/
structure FalCall where
  jobId : String
  target : String
  providerId : String
  model : String
  accountId : String
  tenant : Option String
  project : Option String
  startedAtMs : ℕ

namespace FalCall

/-- `fal_route_decision`. -/
def routeDecision (c : FalCall) : RouteDecision where
  requestId := c.jobId
  strategy := "workload/fal"
  selected := some { targetId := c.target }
  reason := ["workload=image_generation", s!"provider={c.providerId}", s!"model={c.model}",
    "adapter=fal", "commit_point=queue_submission"]

/-- A record of the job. -/
def record (c : FalCall) (status : JobStatus) (updatedAtMs : ℕ) (artifacts : List ArtifactRecord)
    (events : List JobEvent) : JobRecord where
  id := c.jobId
  kind := .imageGeneration
  status := status
  target := c.target
  tenant := c.tenant
  project := c.project
  createdAtMs := c.startedAtMs
  updatedAtMs := updatedAtMs
  routeDecision := c.routeDecision
  artifacts := artifacts
  events := events
  promptStored := false

/-- The first event of a job. -/
def accepted (c : FalCall) : JobEvent where
  event := "accepted"
  status := .accepted
  createdAtMs := c.startedAtMs
  detail := OrdMap.ofList
    [("model", c.model), ("provider", c.providerId), ("prompt_stored", "false")]

/-- fal has put the job in its queue. -/
def queued (requestId : String) (now : ℕ) : JobEvent where
  event := "queued"
  status := .queued
  createdAtMs := now
  detail := OrdMap.ofList
    [("provider_request_id", requestId), ("commit_point", "queue_submission")]

/-- fal works on the job. -/
def running (requestId : String) (now : ℕ) : JobEvent where
  event := "running"
  status := .running
  createdAtMs := now
  detail := OrdMap.ofList [("provider_request_id", requestId)]

/-- An artifact has been captured. -/
def artifactReady (now : ℕ) (a : ArtifactRecord) : JobEvent where
  event := "artifact_ready"
  status := .artifactReady
  createdAtMs := now
  detail := OrdMap.ofList [("artifact_id", a.artifactId), ("media_type", a.mediaType)]

/-- The last event of a job that went well. -/
def succeeded (now : ℕ) : JobEvent where
  event := "succeeded"
  status := .succeeded
  createdAtMs := now
  detail := OrdMap.empty

/-- The last event of a job that failed at a stage. -/
def failed (stage : String) (now : ℕ) : JobEvent where
  event := "failed"
  status := .failed
  createdAtMs := now
  detail := OrdMap.ofList
    [("stage", stage), ("fallback_legal", "false"), ("commit_point", "queue_submission")]

/-- The last event of a job that was cancelled. -/
def cancelled (requestId : String) (now : ℕ) : JobEvent where
  event := "cancelled"
  status := .cancelled
  createdAtMs := now
  detail := OrdMap.ofList
    [("source", "client"), ("provider_request_id", requestId),
      ("upstream_cancel_requested", "true")]

/-- `record_fal_usage`: the record that goes to the ledger. -/
def usage (unitPrice : String → String → Option UnitPrice) (c : FalCall)
    (artifacts : Option (List ArtifactRecord)) : UsageRecord :=
  let price := (unitPrice c.providerId c.model).or (unitPrice "fal" c.model)
  let units := artifacts.bind fun artifacts => mediaUnits price artifacts
  { requestId := c.jobId
    providerId := "fal"
    model := c.model
    tenant := c.tenant
    usage := default
    costMicros := computeUnitCostMicros price units
    cacheSavingsMicros := none }

end FalCall

/-! ### What fal answers -/

/-- An output that fal refers to. -/
structure FalOutputRef where
  url : String
  mediaType : Option String
  width : Option ℕ
  height : Option ℕ

/-- The reference in a JSON value, if it has a URL. -/
def falOutputRef (value : Json) : Option FalOutputRef :=
  (value.getStr "url").map fun url =>
    { url := url
      mediaType := ((value.get "content_type").or (value.get "media_type")).bind Json.asStr
      width := (value.getU64 "width").filter (· < 2 ^ 32)
      height := (value.getU64 "height").filter (· < 2 ^ 32) }

/-- `extract_fal_outputs`: the images, or the single image. -/
def extractFalOutputs (result : Json) : List FalOutputRef :=
  let values := ((result.getArray "images").or
    ((result.get "image").map fun image => [image])).getD []
  values.filterMap falOutputRef

/-- The text after the last dot. -/
def extension (filename : String) : Option String :=
  if filename.toList.contains '.' then
    some (String.ofList (filename.toList.reverse.takeWhile (· ≠ '.')).reverse)
  else none

/-- The media type of an extension. -/
def mediaTypeForFilename (filename : String) : String :=
  match (extension filename).map Text.toAsciiLowercase with
  | some "jpg" | some "jpeg" => "image/jpeg"
  | some "webp" => "image/webp"
  | some "gif" => "image/gif"
  | some "mp4" => "video/mp4"
  | some "webm" => "video/webm"
  | some "mov" => "video/quicktime"
  | _ => "image/png"

/-- The kind of artifact that a media type stands for. -/
def artifactKindForMediaType (mediaType : String) : ArtifactKind :=
  if Text.startsWith "video/" mediaType then .video
  else if Text.startsWith "audio/" mediaType then .audio
  else if Text.startsWith "image/" mediaType then .image
  else .file

/-- A fetched artifact: its new id, the content type and the body of the answer, and their hash. -/
structure Fetched where
  artifactId : String
  contentType : Option String
  bytes : List UInt8
  sha256 : String
  createdAtMs : ℕ

/-- The artifact of one output. -/
def FalCall.artifact (c : FalCall) (requestId : String) (output : FalOutputRef) (f : Fetched) :
    StoredArtifact :=
  let mediaType := (f.contentType.or output.mediaType).getD (mediaTypeForFilename output.url)
  { record :=
      { artifactId := f.artifactId
        jobId := c.jobId
        kind := artifactKindForMediaType mediaType
        mediaType := mediaType
        bytes := f.bytes.length
        sha256 := f.sha256
        storageRef := s!"memory://{f.artifactId}"
        width := output.width
        height := output.height
        durationMs := none
        fps := none
        createdAtMs := f.createdAtMs
        retention := "process_memory"
        provenance := OrdMap.ofList
          [("provider", "fal"), ("provider_id", c.providerId), ("model", c.model),
            ("route_decision_id", c.jobId), ("provider_request_id", requestId)] }
    bytes := f.bytes }

/-- The result of a finished request and the fetch of each of its outputs, to the artifacts; the
first failure ends it. -/
def FalCall.capture (c : FalCall) (requestId : String) (result : Except WorkloadError Json)
    (fetch : FalOutputRef → Except WorkloadError Fetched) :
    Except WorkloadError (List StoredArtifact) :=
  result >>= fun result =>
  let outputs := extractFalOutputs result
  if outputs.isEmpty then
    .error (.upstream "fal result completed without image artifacts")
  else outputs.mapM fun output => (fetch output).map fun f => c.artifact requestId output f

end Workloads

end Switchback
