import Switchback.BodyLog.Pressure

/-!
# Capture admission

A tap or a proxy hands each body it has seen to its capture worker, under the policy of the launch
profile.  The worker shares one body logger with all the others: it may read the pressure status,
queues a job for its own thread, and falls back on the caller's thread when that thread is gone.
-/

namespace Switchback

namespace Capture

open BodyLog BodyLog.Pressure Lib

/-- What the capture code takes from elsewhere: the hexadecimal SHA-256 digest, and the metadata
text of a gap, printed from the pressure reasons, the gap and the caller's metadata. -/
structure Env where
  sha256 : Bytes → Sha
  gapMetadata : List String → (String × Sha × ℕ) → String → String

structure BodyEventInput where
  request_id : String
  capture_stage : String
  protocol : String
  upstream : Option String
  model : Option String
  status : Option ℕ
  content_type : Option String
  metadata : String
  body : Bytes

structure BodyCaptureGap where
  reason : String
  body_sha256 : Sha
  body_bytes : ℕ

inductive CapturePayload
  | full (body : Bytes)
  | gap (gap : BodyCaptureGap)

/-- The digest of the body that a payload stands for. -/
def CapturePayload.sha256 (env : Env) : CapturePayload → Sha
  | .full body => env.sha256 body
  | .gap g => g.body_sha256

/-- The length of the body that a payload stands for. -/
def CapturePayload.bytes : CapturePayload → ℕ
  | .full body => body.length
  | .gap g => g.body_bytes

/-! ### Accumulating a stream -/

/-- The hasher is kept as the bytes it has taken. -/
structure CaptureAccumulator where
  limit : ℕ
  body : Option Bytes
  hashed : Bytes
  body_bytes : ℕ

def CaptureAccumulator.new (limit : ℕ) : CaptureAccumulator := ⟨limit, some [], [], 0⟩

def CaptureAccumulator.observe (acc : CaptureAccumulator) (bytes : Bytes) : CaptureAccumulator :=
  let exceeds_limit := acc.body.any fun body =>
    acc.limit < Word.satAdd body.length bytes.length
  { acc with
    hashed := acc.hashed ++ bytes
    body_bytes := Word.satAdd acc.body_bytes bytes.length
    body := if exceeds_limit then none else acc.body.map (· ++ bytes) }

def CaptureAccumulator.finish (env : Env) (acc : CaptureAccumulator) : CapturePayload :=
  match acc.body with
  | some body => .full body
  | none => .gap ⟨"body_limit_exceeded", env.sha256 acc.hashed, acc.body_bytes⟩

/-- What has seen the stream `seen`. -/
def CaptureAccumulator.saw (limit : ℕ) (seen : Bytes) : CaptureAccumulator :=
  ⟨limit, if seen.length ≤ limit then some seen else none, seen, min seen.length Word.u64Max⟩

theorem CaptureAccumulator.observe_saw {limit : ℕ} (hlimit : limit < Word.u64Max)
    (seen bytes : Bytes) : (saw limit seen).observe bytes = saw limit (seen ++ bytes) := by
  unfold observe saw Word.satAdd
  dsimp only
  rw [List.length_append]
  congr 1
  · by_cases hfits : seen.length ≤ limit
    · rw [if_pos hfits]
      by_cases hmore : seen.length + bytes.length ≤ limit
      · rw [if_pos hmore, Option.any_some, if_neg (by simp; omega), Option.map_some]
      · rw [if_neg hmore, Option.any_some, if_pos (by simp; omega)]
    · -- a body that was given up stays given up
      rw [if_neg hfits, if_neg (by omega : ¬ seen.length + bytes.length ≤ limit)]
      simp
  · omega

/-- **What a stream leaves**, however it is cut: its whole body where that is within the limit, and
otherwise a gap with the digest and the length of the whole. -/
theorem finish_describes (env : Env) {limit : ℕ} (hlimit : limit < Word.u64Max)
    (chunks : List Bytes) :
    (chunks.foldl CaptureAccumulator.observe (.new limit)).finish env =
      if chunks.flatten.length ≤ limit then .full chunks.flatten
      else .gap ⟨"body_limit_exceeded", env.sha256 chunks.flatten,
        min chunks.flatten.length Word.u64Max⟩ := by
  have hsaw : chunks.foldl CaptureAccumulator.observe (.new limit) = .saw limit chunks.flatten := by
    induction chunks using List.reverseRecOn with
    | nil => rfl
    | append_singleton chunks bytes ih =>
      rw [List.foldl_append, ih, List.flatten_append, List.flatten_singleton]
      exact CaptureAccumulator.observe_saw hlimit _ bytes
  rw [hsaw, CaptureAccumulator.finish, CaptureAccumulator.saw]
  split_ifs <;> rfl

/-- The digest of the three bytes below. -/
def threeBytesSha : Sha := "039058c6f2c0cb492c533b0a4d14ef77cc0f78abccced5287d84a1a2011cfb81"

theorem finish_describes_cut :
    (([[1, 2], [3]] : List Bytes).foldl CaptureAccumulator.observe (.new 2)).finish
        ⟨fun _ => threeBytesSha, fun _ _ metadata => metadata⟩ =
      .gap ⟨"body_limit_exceeded", threeBytesSha, 3⟩ :=
  finish_describes ⟨fun _ => threeBytesSha, fun _ _ metadata => metadata⟩
    (by decide : 2 < Word.u64Max) [[1, 2], [3]]

/-! ### The workers of a gateway -/

def tapCaptureBodyMaxBytes : ℕ := 16 * 1024 * 1024

def tapCapturePersistenceFailuresToDegrade : ℕ := 3

/-- `CaptureWorker`, as far as its calls differ: whether they read the pressure status. -/
structure CaptureWorker where
  pressure_checks : Bool

/-- `CaptureWorker::new` outside tests. -/
def CaptureWorker.new : CaptureWorker := ⟨true⟩

inductive CaptureJob
  | fullWire (input : BodyEventInput)
  | metadataOnly (input : BodyEventInput) (pressure : PressureStatus)
      (gap : Option BodyCaptureGap)

/-- What a recipient of an undelivered job takes out of it. -/
def CaptureJob.input : CaptureJob → BodyEventInput
  | .fullWire input => input
  | .metadataOnly input _ _ => input

/-- What the body log puts into a row by itself. -/
structure Stamp where
  event_id : String
  observed_at_unix_ms : ℤ
  compressed_bytes : ℕ
  archive_path : Path
  threshold_shrunk : Bool
  deriving DecidableEq

/-- A durable event: a row of the index, with the body its segment carries or the gap its metadata
carries. -/
inductive Event
  | wire (record : BodyRecord) (body : Bytes)
  | gap (record : BodyRecord) (gap : BodyCaptureGap)

def Event.record : Event → BodyRecord
  | .wire record _ => record
  | .gap record _ => record

/-- What a call does to the body log. -/
inductive Effect
  | marked (reason : String)
  | stored (event : Event)

/-- The events among effects. -/
def stored : List Effect → List Event :=
  List.filterMap fun
    | .marked _ => none
    | .stored event => some event

/-- How an attempt to persist fails: before anything is committed, or after the commit, on the
poisoned lock of the pressure controller. -/
inductive Failure
  | busy
  | unnoted (stamp : Stamp)
  deriving DecidableEq

/-- What becomes of a job: the worker handles it, or dies with the job in its queue, or was gone
before, so that the caller has the job back. -/
inductive Handover
  | handled
  | dropped
  | refused
  deriving DecidableEq

/-- What a call finds: the status that the pressure controller holds, whether it can be read, the
state file and the time of a marking that gets through, whether the status can be read again, the
reading for a gap, the fate of the job, the attempts to persist that fail, and the stamp of the one
that does not. -/
structure Weather where
  shared : PressureStatus
  readable : Bool
  marking : Option (StateFile × ℤ)
  rereadable : Bool
  gapStatus : Option PressureStatus
  handover : Handover
  failures : List Failure
  stamp : Stamp

/-- `mark_capture_writer_failed("pressure_observation")`: what the controller holds afterwards. -/
def Weather.remarked (weather : Weather) : PressureStatus :=
  match weather.marking with
  | some (file, now) =>
    statusFromState (failedState (readPersistedState file) "pressure_observation" now)
  | none => weather.shared

/-- The shared mode at the admission of a call. -/
def Weather.mode (weather : Weather) (worker : CaptureWorker) : CaptureMode :=
  if worker.pressure_checks ∧ weather.readable = false then weather.remarked.mode
  else weather.shared.mode

section Calls

variable (env : Env) (weather : Weather)

/-- The event of `BodyLogger::record`. -/
def wireEvent (stamp : Stamp) (input : BodyEventInput) : Event :=
  .wire
    { event_id := stamp.event_id
      request_id := input.request_id
      observed_at_unix_ms := stamp.observed_at_unix_ms
      capture_stage := input.capture_stage
      protocol := input.protocol
      upstream := input.upstream
      model := input.model
      status := input.status
      content_type := input.content_type
      body_sha256 := env.sha256 input.body
      body_bytes := input.body.length
      compressed_bytes := stamp.compressed_bytes
      archive_path := stamp.archive_path
      storage := stamp.archive_path.segmentStorage
      protect := true
      redaction_state := "raw_local"
      threshold_shrunk := stamp.threshold_shrunk
      metadata := input.metadata }
    input.body

/-- The event of `BodyLogger::record_gap_inner`. -/
def gapEvent (stamp : Stamp) (input : BodyEventInput) (admission : PressureStatus)
    (gap : BodyCaptureGap) (redaction_state : String) : Event :=
  .gap
    { event_id := stamp.event_id
      request_id := input.request_id
      observed_at_unix_ms := stamp.observed_at_unix_ms
      capture_stage := input.capture_stage
      protocol := input.protocol
      upstream := input.upstream
      model := input.model
      status := input.status
      content_type := input.content_type
      body_sha256 := gap.body_sha256
      body_bytes := gap.body_bytes
      compressed_bytes := 0
      archive_path := .empty
      storage := .metadataOnly
      protect := false
      redaction_state := redaction_state
      threshold_shrunk := false
      metadata := env.gapMetadata admission.reasons (gap.reason, gap.body_sha256, gap.body_bytes)
        input.metadata }
    gap

/-- `record_metadata_only` and `record_capture_gap`. -/
def metadataEvent (stamp : Stamp) (input : BodyEventInput) (pressure : PressureStatus) :
    Option BodyCaptureGap → Event
  | some gap => gapEvent env stamp input pressure gap "metadata_only_capture_gap"
  | none =>
    gapEvent env stamp input pressure
      ⟨"pressure_policy", env.sha256 input.body, input.body.length⟩ "metadata_only_pressure"

/-- What a failed attempt on a body leaves. -/
def Failure.committed (input : BodyEventInput) : Failure → Option Event
  | .busy => none
  | .unnoted s => some (wireEvent env s input)

/-- The rest of the loop of `persist_capture_job` after `attempts` failures. -/
def persistCaptureJobLoop (stamp : Stamp) (input : BodyEventInput) :
    ℕ → List Failure → List Effect
  | _, [] => [.stored (wireEvent env stamp input)]
  | attempts, failure :: failures =>
    (failure.committed env input).toList.map .stored ++
    (if attempts + 1 = tapCapturePersistenceFailuresToDegrade then
      [.marked "full_wire_persistence"] else []) ++
    persistCaptureJobLoop stamp input (attempts + 1) failures

/-- `persist_capture_job`: tries until the body is recorded. -/
def persistCaptureJob (input : BodyEventInput) : List Effect :=
  persistCaptureJobLoop env weather.stamp input 0 weather.failures

/-- `persist_metadata_capture_job`: tries once. -/
def persistMetadataCaptureJob (input : BodyEventInput) (pressure : PressureStatus)
    (gap : Option BodyCaptureGap) : List Effect :=
  match weather.failures with
  | [] => [.stored (metadataEvent env weather.stamp input pressure gap)]
  | .busy :: _ => []
  | .unnoted s :: _ => [.stored (metadataEvent env s input pressure gap)]

/-- The worker's thread on one job. -/
def handle : CaptureJob → List Effect
  | .fullWire input => persistCaptureJob env weather input
  | .metadataOnly input pressure gap => persistMetadataCaptureJob env weather input pressure gap

/-- `sender.send`, with the fallback that the three kinds of submission share: a job that comes
back is persisted by the caller, as a body. -/
def send (job : CaptureJob) : List Effect :=
  match weather.handover with
  | .handled => handle env weather job
  | .dropped => []
  | .refused => persistCaptureJob env weather job.input

def submitMetadataOnly (input : BodyEventInput) (pressure : PressureStatus) : List Effect :=
  send env weather (.metadataOnly input pressure none)

def submitGap (input : BodyEventInput) (gap : BodyCaptureGap) : List Effect :=
  match weather.gapStatus with
  | none => []
  | some status =>
    send env weather (.metadataOnly input
      { status with
        mode := .metadataOnly
        reasons := status.reasons ++ [s!"capture_gap:{gap.reason}"] } (some gap))

/-- The second half of `submit`, once the pressure status is known or not wanted. -/
def submitAdmitted (input : BodyEventInput) (pressure : Option PressureStatus) : List Effect :=
  match pressure.filter fun status => status.mode = .metadataOnly with
  | some status => submitMetadataOnly env weather input status
  | none =>
    if tapCaptureBodyMaxBytes < input.body.length then
      submitGap env weather { input with body := [] }
        ⟨"body_limit_exceeded", env.sha256 input.body, input.body.length⟩
    else send env weather (.fullWire input)

def CaptureWorker.submit (worker : CaptureWorker) (input : BodyEventInput) : List Effect :=
  if worker.pressure_checks then
    if weather.readable then submitAdmitted env weather input (some weather.shared)
    else .marked "pressure_observation" ::
      if weather.rereadable then submitAdmitted env weather input (some weather.remarked)
      else []
  else submitAdmitted env weather input none

def CaptureWorker.submitPayload (worker : CaptureWorker) (input : BodyEventInput) :
    CapturePayload → List Effect
  | .full body => worker.submit env weather { input with body := body }
  | .gap gap => submitGap env weather { input with body := [] } gap

/-- The gap that stands for a payload under a `metadata_only` policy. -/
def policyGap : CapturePayload → BodyCaptureGap
  | .full body => ⟨"launch_profile_policy", env.sha256 body, body.length⟩
  | .gap gap => gap

/-- `CaptureWorker::submit_authorized_payload`.  A policy it does not know is taken for
`segmented_full_wire`. -/
def CaptureWorker.submitAuthorizedPayload (worker : CaptureWorker) (input : BodyEventInput)
    (payload : CapturePayload) (effective_policy : Option String) : List Effect :=
  if effective_policy = some "off" then []
  else if effective_policy = some "metadata_only" then
    submitGap env weather { input with body := [] } (policyGap env payload)
  else worker.submitPayload env weather input payload

end Calls

/-! ### What a call owes -/

/-- A call of `submit_authorized_payload` with what it finds. -/
structure Call where
  worker : CaptureWorker
  input : BodyEventInput
  payload : CapturePayload
  effective_policy : Option String
  weather : Weather

/-- The events that a call leads to. -/
def Call.events (env : Env) (c : Call) : List Event :=
  stored (c.worker.submitAuthorizedPayload env c.weather c.input c.payload c.effective_policy)

/-- The ways of a payload through the worker. -/
inductive Route
  | skipped
  | metadata
  | gap
  | wire

/-- The pressure status does not have the worker keep metadata only. -/
def Call.wide (c : Call) : Bool :=
  !c.worker.pressure_checks || c.weather.mode c.worker ≠ .metadataOnly

/-- The way of a payload that is captured. -/
def Call.route (c : Call) : Route :=
  if c.effective_policy = some "metadata_only" then .gap
  else
    match c.payload with
    | .gap _ => .gap
    | .full body =>
      if c.worker.pressure_checks ∧ c.weather.readable = false ∧ c.weather.rereadable = false then
        .skipped
      else if c.wide = false then .metadata
      else if tapCaptureBodyMaxBytes < body.length then .gap
      else .wire

section Paths

variable {env : Env} {weather : Weather}

variable {input : BodyEventInput}

end Paths

section Ways

variable {env : Env} {c : Call}

variable {body : Bytes}

end Ways

/-- A status in metadata-only mode. -/
def degraded : PressureStatus :=
  statusFromState (failedState .default "full_wire_persistence" 1000)

/-- A worker that lives, a status that can be read, and a store that refuses `failures`. -/
def fair (failures : List Failure) : Weather :=
  { shared := degraded
    readable := true
    marking := none
    rereadable := true
    gapStatus := some degraded
    handover := .handled
    failures := failures
    stamp := ⟨"event-1", 1000, 8, .inArchive 0 "a.seg", false⟩ }

end Capture

end Switchback
