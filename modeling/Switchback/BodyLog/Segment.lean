import Switchback.BodyLog.Index
import Switchback.Lib.Journal
import Switchback.Lib.Wire
import Switchback.Lib.Word

/-!
# Capture segments

The segment file format: an eight-byte magic, then one frame for each captured record, with the
record's metadata and its body compressed together behind a checksummed header.
-/

namespace Switchback

namespace BodyLog

open Lib

/-- The compressor, checksums and JSON writers, with what they promise. -/
structure Codec where
  zstdEncode : Bytes → Bytes
  zstdDecode : Bytes → Option Bytes
  crc32 : Bytes → ℕ
  sha256Hex : Bytes → Sha
  recordToVec : BodyRecord → Bytes
  recordFromSlice : Bytes → Option BodyRecord
  manifestToVec : SegmentManifest → Bytes
  zstdDecode_encode : ∀ b, zstdDecode (zstdEncode b) = some b
  crc32_lt : ∀ b, crc32 b < 256 ^ 4
  recordFromSlice_toVec : ∀ r, recordFromSlice (recordToVec r) = some r

/-- `CAPTURE_SEGMENT_MAGIC`, the text `SBCAP001`. -/
def segmentMagic : Bytes := [0x53, 0x42, 0x43, 0x41, 0x50, 0x30, 0x30, 0x31]

/-- `CAPTURE_RECORD_MAGIC`, the text `REC1`. -/
def recordMagic : Bytes := [0x52, 0x45, 0x43, 0x31]

/-- `CAPTURE_RECORD_HEADER_BYTES`. -/
def recordHeaderBytes : ℕ := 4 + 8 + 8 + 4

/-- `CAPTURE_RECORD_MAX_BYTES`. -/
def recordMaxBytes : ℕ := 512 * 1024 * 1024

/-- `CAPTURE_SEGMENT_MAX_BYTES`. -/
def segmentMaxBytes : ℕ := 64 * 1024 * 1024

/-- `CAPTURE_SEGMENT_ROTATE_MS`. -/
def segmentRotateMs : ℤ := 15 * 60 * 1000

/-- `CAPTURE_SEGMENT_SCHEMA`. -/
def segmentSchema : String := "switchback/capture-segment@1"

structure SegmentFrame where
  record : BodyRecord
  body : Bytes
  deriving DecidableEq

/-! ### Writing -/

/-- The payload of a frame: the length of the metadata, the metadata, the body. -/
def payloadOf (c : Codec) (r : BodyRecord) (body : Bytes) : Bytes :=
  Journal.toBe 4 (c.recordToVec r).length ++ c.recordToVec r ++ body

/-- The loop of `encode_segment_frame`: the record carries the compressed size of the frame that
carries the record, so the frame is built again until the two agree, four times at most.  The
results are the record as it is indexed and the record as it stands in the frame. -/
def encodeLoop (c : Codec) (body : Bytes) : ℕ → BodyRecord → Except Error (BodyRecord × BodyRecord)
  | 0, r =>
    if (c.recordToVec r).length ≥ 256 ^ 4 then .error "capture segment metadata exceeds u32"
    else .ok ({ r with compressed_bytes := (c.zstdEncode (payloadOf c r body)).length }, r)
  | n + 1, r =>
    if (c.recordToVec r).length ≥ 256 ^ 4 then .error "capture segment metadata exceeds u32"
    else if r.compressed_bytes = (c.zstdEncode (payloadOf c r body)).length then .ok (r, r)
    else
      encodeLoop c body n
        { r with compressed_bytes := (c.zstdEncode (payloadOf c r body)).length }

/-- The bytes of a frame. -/
def frameBytes (c : Codec) (f : SegmentFrame) : Bytes :=
  let payload := payloadOf c f.record f.body
  let compressed := c.zstdEncode payload
  recordMagic ++ Journal.toBe 8 compressed.length ++ Journal.toBe 8 payload.length ++
    Journal.toBe 4 (c.crc32 compressed) ++ compressed

/-- `encode_segment_frame`: the record to index and the frame to append. -/
def encodeSegmentFrame (c : Codec) (r : BodyRecord) (body : Bytes) :
    Except Error (BodyRecord × SegmentFrame) :=
  match encodeLoop c body 3 r with
  | .error e => .error e
  | .ok (indexed, framed) =>
    let payload := payloadOf c framed body
    if (c.zstdEncode payload).length > recordMaxBytes ∨ payload.length > recordMaxBytes then
      .error "capture segment record exceeds safety limit"
    else .ok (indexed, ⟨framed, body⟩)

def segmentWouldExceedLimit (existing_bytes frame_bytes : ℕ) : Bool :=
  existing_bytes > segmentMagic.length ∧ existing_bytes + frame_bytes > segmentMaxBytes

/-- The payload part of the reader: metadata, body and their integrity. -/
def readPayload (c : Codec) (payload_len : ℕ) (payload : Bytes) : Except Error SegmentFrame :=
  if payload.length ≠ payload_len ∨ payload.length < 4 then
    .error "capture segment payload length mismatch"
  else
    let metadata_len := Journal.fromBe (payload.take 4)
    if 4 + metadata_len > payload.length then .error "capture segment metadata is incomplete"
    else
      match c.recordFromSlice ((payload.drop 4).take metadata_len) with
      | none => .error "invalid record metadata"
      | some record =>
        let body := payload.drop (4 + metadata_len)
        if record.body_bytes ≠ body.length ∨ record.body_sha256 ≠ c.sha256Hex body then
          .error "capture segment body integrity mismatch"
        else .ok ⟨record, body⟩

/-- The numbers of a frame header: compressed length, payload length, checksum. -/
def headerFields (bytes : Bytes) : ℕ × ℕ × ℕ :=
  (Journal.fromBe ((bytes.drop 4).take 8), Journal.fromBe ((bytes.drop 12).take 8),
    Journal.fromBe ((bytes.drop 20).take 4))

/-- One round of the loop of `scan_segment`. -/
def nextFrame (c : Codec) (bytes : Bytes) : Journal.Next Error SegmentFrame :=
  if bytes = [] then .done
  else if bytes.length < recordHeaderBytes then
    .torn "capture segment has incomplete record header"
  else if bytes.take 4 ≠ recordMagic then .bad "capture segment record magic mismatch"
  else
    let (compressed_len, payload_len, checksum) := headerFields bytes
    if compressed_len > recordMaxBytes ∨ payload_len > recordMaxBytes then
      .bad "capture segment record exceeds safety limit"
    else if bytes.length - recordHeaderBytes < compressed_len then
      .torn "capture segment record body is incomplete"
    else
      let compressed := (bytes.drop recordHeaderBytes).take compressed_len
      if c.crc32 compressed ≠ checksum then .bad "capture segment record checksum mismatch"
      else
        match c.zstdDecode compressed with
        | none => .bad "invalid compressed record"
        | some payload =>
          match readPayload c payload_len payload with
          | .error e => .bad e
          | .ok frame => .frame frame (bytes.drop (recordHeaderBytes + compressed_len))

/-- `scan_segment`: the frames of a file, and the file as it is left.  With `recover_tail` a torn
frame at the end is cut off the file; without, it is an error. -/
def scanSegment (c : Codec) (recover_tail : Bool) (bytes : Bytes) :
    Except Error (List SegmentFrame × Bytes) :=
  if bytes.length < segmentMagic.length then .error "capture segment header incomplete"
  else if bytes.take segmentMagic.length ≠ segmentMagic then
    .error "capture segment magic mismatch"
  else
    match Journal.scan (nextFrame c) (bytes.length + 1) (bytes.drop segmentMagic.length) with
    | .error e => .error e
    | .ok (frames, none) => .ok (frames, bytes)
    | .ok (frames, some (reason, tail)) =>
      if recover_tail then .ok (frames, bytes.take (bytes.length - tail.length))
      else .error reason

/-! ### A written frame is read back -/

/-- A frame whose record describes its body and whose sizes are within the limits. -/
structure FrameOk (c : Codec) (f : SegmentFrame) : Prop where
  bytes_eq : f.record.body_bytes = f.body.length
  sha_eq : f.record.body_sha256 = c.sha256Hex f.body
  metadata_lt : (c.recordToVec f.record).length < 256 ^ 4
  compressed_le : (c.zstdEncode (payloadOf c f.record f.body)).length ≤ recordMaxBytes
  payload_le : (payloadOf c f.record f.body).length ≤ recordMaxBytes

variable {c : Codec} {f : SegmentFrame} {frames : List SegmentFrame}

theorem encodeLoop_ok {body : Bytes} {n : ℕ} {r indexed framed : BodyRecord}
    (h : encodeLoop c body n r = .ok (indexed, framed)) :
    (∃ k, indexed = { r with compressed_bytes := k }) ∧
      (∃ k, framed = { r with compressed_bytes := k }) ∧
      (c.recordToVec framed).length < 256 ^ 4 := by
  induction n generalizing r with
  | zero =>
    rw [encodeLoop] at h
    split_ifs at h with hlen
    cases h
    exact ⟨⟨_, rfl⟩, ⟨_, rfl⟩, by omega⟩
  | succ n ih =>
    rw [encodeLoop] at h
    split_ifs at h with hlen heq
    · cases h
      exact ⟨⟨_, rfl⟩, ⟨_, rfl⟩, by omega⟩
    · obtain ⟨⟨k, hk⟩, ⟨k', hk'⟩, hlt⟩ := ih h
      exact ⟨⟨k, hk⟩, ⟨k', hk'⟩, hlt⟩

/-- What `encode_segment_frame` writes: the record, up to its compressed size, with its body. -/
theorem encodeSegmentFrame_ok {r indexed : BodyRecord} {body : Bytes}
    (hbytes : r.body_bytes = body.length) (hsha : r.body_sha256 = c.sha256Hex body)
    (h : encodeSegmentFrame c r body = .ok (indexed, f)) :
    (∃ k, indexed = { r with compressed_bytes := k }) ∧
      (∃ k, f = ⟨{ r with compressed_bytes := k }, body⟩) ∧ FrameOk c f := by
  rw [encodeSegmentFrame] at h
  cases hloop : encodeLoop c body 3 r with
  | error e => simp [hloop] at h
  | ok p =>
    obtain ⟨indexed', framed⟩ := p
    obtain ⟨hindexed, ⟨k, rfl⟩, hlt⟩ := encodeLoop_ok hloop
    simp only [hloop] at h
    split_ifs at h with hlimit
    cases h
    rw [not_or, not_lt, not_lt] at hlimit
    exact ⟨hindexed, ⟨k, rfl⟩, hbytes, hsha, hlt, hlimit.1, hlimit.2⟩

theorem length_payloadOf (c : Codec) (r : BodyRecord) (body : Bytes) :
    (payloadOf c r body).length = 4 + (c.recordToVec r).length + body.length := by
  simp [payloadOf, Nat.add_assoc]

theorem readPayload_payloadOf (h : FrameOk c f) :
    readPayload c (payloadOf c f.record f.body).length (payloadOf c f.record f.body) = .ok f := by
  have hlen := length_payloadOf c f.record f.body
  have htake : (payloadOf c f.record f.body).take 4 =
      Journal.toBe 4 (c.recordToVec f.record).length := by
    rw [payloadOf, List.append_assoc]
    exact List.take_left' (Journal.length_toBe _ _)
  have hdrop : (payloadOf c f.record f.body).drop 4 = c.recordToVec f.record ++ f.body := by
    rw [payloadOf, List.append_assoc]
    exact List.drop_left' (Journal.length_toBe _ _)
  have hmeta : Journal.fromBe ((payloadOf c f.record f.body).take 4) =
      (c.recordToVec f.record).length := by
    rw [htake, Journal.fromBe_toBe h.metadata_lt]
  have hbody : (payloadOf c f.record f.body).drop (4 + (c.recordToVec f.record).length) =
      f.body := by
    rw [← List.drop_drop, hdrop, List.drop_left]
  have hrecord : ((payloadOf c f.record f.body).drop 4).take (c.recordToVec f.record).length =
      c.recordToVec f.record := by
    rw [hdrop, List.take_left]
  have hshort : ¬ ((payloadOf c f.record f.body).length ≠ (payloadOf c f.record f.body).length ∨
      (payloadOf c f.record f.body).length < 4) := by omega
  have hlong : ¬ 4 + (c.recordToVec f.record).length > (payloadOf c f.record f.body).length := by
    omega
  rw [readPayload, if_neg hshort]
  simp only [hmeta, if_neg hlong, hrecord, c.recordFromSlice_toVec, hbody, h.bytes_eq, h.sha_eq,
    ne_eq, not_true_eq_false, or_self, if_false]

/-- The header of a frame and the compressed payload behind it. -/
def frameHeader (c : Codec) (f : SegmentFrame) : Bytes :=
  recordMagic ++ Journal.toBe 8 (c.zstdEncode (payloadOf c f.record f.body)).length ++
    Journal.toBe 8 (payloadOf c f.record f.body).length ++
    Journal.toBe 4 (c.crc32 (c.zstdEncode (payloadOf c f.record f.body)))

theorem frameBytes_eq (c : Codec) (f : SegmentFrame) :
    frameBytes c f = frameHeader c f ++ c.zstdEncode (payloadOf c f.record f.body) := by
  simp [frameBytes, frameHeader]

@[simp] theorem length_frameHeader (c : Codec) (f : SegmentFrame) :
    (frameHeader c f).length = recordHeaderBytes := by
  simp [frameHeader, recordMagic, recordHeaderBytes]

theorem headerFields_frameHeader (h : FrameOk c f) (rest : Bytes) :
    headerFields (frameHeader c f ++ rest) =
      ((c.zstdEncode (payloadOf c f.record f.body)).length,
        (payloadOf c f.record f.body).length,
        c.crc32 (c.zstdEncode (payloadOf c f.record f.body))) := by
  have hc : (c.zstdEncode (payloadOf c f.record f.body)).length < 256 ^ 8 :=
    lt_of_le_of_lt h.compressed_le (by decide)
  have hp : (payloadOf c f.record f.body).length < 256 ^ 8 :=
    lt_of_le_of_lt h.payload_le (by decide)
  have hmagic : recordMagic.length = 4 := rfl
  have h8 (n : ℕ) : (Journal.toBe 8 n).length = 8 := Journal.length_toBe 8 n
  have h4 (n : ℕ) : (Journal.toBe 4 n).length = 4 := Journal.length_toBe 4 n
  rw [headerFields, frameHeader]
  simp only [List.append_assoc]
  rw [List.drop_left' hmagic, List.take_left' (h8 _)]
  rw [show (12 : ℕ) = 4 + 8 from rfl, ← List.drop_drop, List.drop_left' hmagic,
    List.drop_left' (h8 _), List.take_left' (h8 _)]
  rw [show (20 : ℕ) = 4 + (8 + 8) from rfl, ← List.drop_drop, ← List.drop_drop,
    List.drop_left' hmagic, List.drop_left' (h8 _), List.drop_left' (h8 _),
    List.take_left' (h4 _)]
  rw [Journal.fromBe_toBe hc, Journal.fromBe_toBe hp, Journal.fromBe_toBe (c.crc32_lt _)]

theorem take_frameHeader (c : Codec) (f : SegmentFrame) (rest : Bytes) :
    (frameHeader c f ++ rest).take 4 = recordMagic := by
  rw [frameHeader]
  simp only [List.append_assoc]
  exact List.take_left' rfl

/-- **A written frame is read back**, and any proper part of it reads as torn. -/
theorem encodes_frame (h : FrameOk c f) : Journal.Encodes (nextFrame c) f (frameBytes c f) := by
  have hlenHeader := length_frameHeader c f
  have hsizes : ¬ ((c.zstdEncode (payloadOf c f.record f.body)).length > recordMaxBytes ∨
      (payloadOf c f.record f.body).length > recordMaxBytes) := by
    have := h.compressed_le
    have := h.payload_le
    omega
  refine ⟨?_, fun rest => ?_, fun p hp hne hpart => ?_⟩
  · intro hnil
    have := congrArg List.length hnil
    rw [frameBytes_eq, List.length_append, hlenHeader] at this
    simp [recordHeaderBytes] at this
  · rw [frameBytes_eq, List.append_assoc]
    have hnonempty : frameHeader c f ++ (c.zstdEncode (payloadOf c f.record f.body) ++ rest) ≠ [] := by
      intro hnil
      have := congrArg List.length hnil
      rw [List.length_append, hlenHeader] at this
      simp [recordHeaderBytes] at this
    have hlong : ¬ (frameHeader c f ++
        (c.zstdEncode (payloadOf c f.record f.body) ++ rest)).length < recordHeaderBytes := by
      rw [List.length_append, hlenHeader]
      omega
    have hroom : ¬ (frameHeader c f ++ (c.zstdEncode (payloadOf c f.record f.body) ++ rest)).length -
        recordHeaderBytes < (c.zstdEncode (payloadOf c f.record f.body)).length := by
      rw [List.length_append, hlenHeader, List.length_append]
      omega
    have hbody : (frameHeader c f ++ (c.zstdEncode (payloadOf c f.record f.body) ++ rest)).drop
        recordHeaderBytes = c.zstdEncode (payloadOf c f.record f.body) ++ rest :=
      List.drop_left' hlenHeader
    simp only [nextFrame, if_neg hnonempty, if_neg hlong, take_frameHeader, ne_eq,
      not_true_eq_false, if_false, headerFields_frameHeader h, if_neg hsizes, if_neg hroom, hbody,
      List.take_left, c.zstdDecode_encode, readPayload_payloadOf h]
    rw [← List.drop_drop, hbody, List.drop_left]
  · -- a part that stops inside the header, or one that stops inside the compressed payload
    rw [frameBytes_eq] at hp hpart
    by_cases hshort : p.length < recordHeaderBytes
    · refine ⟨"capture segment has incomplete record header", ?_⟩
      simp only [nextFrame, if_neg hne, if_pos hshort]
    · have hheader : frameHeader c f <+: p :=
        List.prefix_of_prefix_length_le (List.prefix_append _ _) hp (by omega)
      obtain ⟨q, rfl⟩ := hheader
      rw [List.prefix_append_right_inj] at hp
      have hq : q.length < (c.zstdEncode (payloadOf c f.record f.body)).length := by
        refine lt_of_le_of_ne hp.length_le fun hlen => hpart ?_
        rw [hp.eq_of_length hlen]
      have hroom : (frameHeader c f ++ q).length - recordHeaderBytes <
          (c.zstdEncode (payloadOf c f.record f.body)).length := by
        rw [List.length_append, hlenHeader]
        omega
      refine ⟨"capture segment record body is incomplete", ?_⟩
      simp only [nextFrame, if_neg hne, if_neg hshort, take_frameHeader, ne_eq,
        not_true_eq_false, if_false, headerFields_frameHeader h, if_neg hsizes, if_pos hroom]

/-! ### Whole and torn files -/

/-- The file that holds these frames. -/
def segmentBytes (c : Codec) (frames : List SegmentFrame) : Bytes :=
  segmentMagic ++ (frames.map (frameBytes c)).flatten

/-- The start of a frame, cut short. -/
def TornFrame (c : Codec) (p : Bytes) : Prop :=
  p ≠ [] ∧ ∃ f, FrameOk c f ∧ p <+: frameBytes c f ∧ p ≠ frameBytes c f

theorem segmentBytes_concat (c : Codec) (frames : List SegmentFrame) (f : SegmentFrame) :
    segmentBytes c (frames ++ [f]) = segmentBytes c frames ++ frameBytes c f := by
  simp [segmentBytes]

theorem length_segmentBytes_ge (c : Codec) (frames : List SegmentFrame) (p : Bytes) :
    ¬ (segmentBytes c frames ++ p).length < segmentMagic.length := by
  simp [segmentBytes]

theorem take_segmentBytes (c : Codec) (frames : List SegmentFrame) (p : Bytes) :
    (segmentBytes c frames ++ p).take segmentMagic.length = segmentMagic := by
  rw [segmentBytes, List.append_assoc, List.take_left]

theorem drop_segmentBytes (c : Codec) (frames : List SegmentFrame) (p : Bytes) :
    (segmentBytes c frames ++ p).drop segmentMagic.length =
      ((frames.map fun f => (f, frameBytes c f)).map Prod.snd).flatten ++ p := by
  rw [segmentBytes, List.append_assoc, List.drop_left, List.map_map]
  rfl

theorem encodes_frames (h : ∀ f ∈ frames, FrameOk c f) :
    ∀ g ∈ frames.map fun f => (f, frameBytes c f), Journal.Encodes (nextFrame c) g.1 g.2 := by
  intro g hg
  obtain ⟨f, hf, rfl⟩ := List.mem_map.1 hg
  exact encodes_frame (h f hf)

/-- **A whole segment is read back**, and left as it is. -/
theorem scanSegment_whole (h : ∀ f ∈ frames, FrameOk c f) (recover_tail : Bool) :
    scanSegment c recover_tail (segmentBytes c frames) = .ok (frames, segmentBytes c frames) := by
  have hlong := length_segmentBytes_ge c frames []
  have hmagic := take_segmentBytes c frames []
  have hdrop := drop_segmentBytes c frames []
  rw [List.append_nil] at hlong hmagic hdrop
  rw [List.append_nil] at hdrop
  have hfuel : ((frames.map fun f => (f, frameBytes c f)).map Prod.snd).flatten.length <
      (segmentBytes c frames).length + 1 := by
    rw [← hdrop, List.length_drop]
    omega
  have hscan := Journal.scan_flatten (by simp [nextFrame]) (encodes_frames h) hfuel
  rw [scanSegment, if_neg hlong, if_neg (not_not.2 hmagic), hdrop, hscan]
  simp [List.map_map, Function.comp_def]

/-- **A torn frame is cut off**, and the frames before it are read. -/
theorem scanSegment_torn (h : ∀ f ∈ frames, FrameOk c f) {p : Bytes} (hp : TornFrame c p) :
    scanSegment c true (segmentBytes c frames ++ p) = .ok (frames, segmentBytes c frames) := by
  obtain ⟨hne, f, hf, hpre, hpart⟩ := hp
  have hlong := length_segmentBytes_ge c frames p
  have hmagic := take_segmentBytes c frames p
  have hdrop := drop_segmentBytes c frames p
  have hfuel : (((frames.map fun f => (f, frameBytes c f)).map Prod.snd).flatten ++ p).length <
      (segmentBytes c frames ++ p).length + 1 := by
    rw [← hdrop, List.length_drop]
    omega
  obtain ⟨e, hscan⟩ :=
    Journal.scan_torn (encodes_frames h) (encodes_frame hf) hpre hne hpart hfuel
  rw [scanSegment, if_neg hlong, if_neg (not_not.2 hmagic), hdrop, hscan]
  simp [List.map_map, Function.comp_def]

/-- The sum of the body sizes, kept within a machine word. -/
def bodyBytesOf (frames : List SegmentFrame) : ℕ :=
  (frames.map fun f => f.record.body_bytes).foldl Word.satAdd 0

/-- The manifest that `write_segment_manifest` writes. -/
def manifestOf (c : Codec) (path : Path) (bytes : Bytes) (frames : List SegmentFrame) :
    SegmentManifest :=
  { schema_version := segmentSchema
    segment_file := path.file
    segment_sha256 := c.sha256Hex bytes
    segment_bytes := bytes.length
    record_count := frames.length
    body_bytes := bodyBytesOf frames
    first_observed_at_unix_ms := frames.head?.map fun f => f.record.observed_at_unix_ms
    last_observed_at_unix_ms := frames.getLast?.map fun f => f.record.observed_at_unix_ms
    sealed := true }

/-- `read_verified_segment_manifest` on a manifest that is there: schema, file name, size and
checksum of the segment. -/
def verifyManifest (c : Codec) (path : Path) (m : SegmentManifest) (bytes : Bytes) :
    Except Error SegmentManifest :=
  if m.schema_version ≠ segmentSchema then
    .error "unsupported capture segment manifest schema"
  else if m.segment_file ≠ path.file then .error "capture segment manifest file mismatch"
  else if m.segment_bytes ≠ bytes.length ∨ m.segment_sha256 ≠ c.sha256Hex bytes then
    .error "capture segment checksum proof failed"
  else .ok m

theorem verifyManifest_eq_ok {path : Path} {m m' : SegmentManifest} {bytes : Bytes} :
    verifyManifest c path m bytes = .ok m' ↔
      m' = m ∧ m.schema_version = segmentSchema ∧ m.segment_file = path.file ∧
        m.segment_bytes = bytes.length ∧ m.segment_sha256 = c.sha256Hex bytes := by
  rw [verifyManifest]
  split_ifs with h₁ h₂ h₃
  · simp [h₁]
  · simp [h₂]
  · simp only [false_iff]
    tauto
  · simp only [Except.ok.injEq]
    constructor
    · rintro rfl
      exact ⟨rfl, not_not.1 h₁, not_not.1 h₂, by tauto, by tauto⟩
    · exact fun h => h.1.symm

/-! ### A plain codec -/

namespace Plain

/-- The encoding of an enumeration by the position of a value in the list of its values. -/
def storage : Wire Storage :=
  Wire.nat.map
    (fun st => [Storage.archive, .spool, .archiveSegment, .spoolSegment, .metadataOnly].idxOf st)
    (fun n => [Storage.archive, .spool, .archiveSegment, .spoolSegment, .metadataOnly].getD n
      .archive) (fun st => by cases st <;> rfl)

def path : Wire Path :=
  (Wire.nat.prod (Wire.int.prod Wire.string)).map (fun p => (p.root.rank, p.day, p.file))
    (fun t => ⟨[Root.archive, .spool, .archiveBlobs, .spoolBlobs, .elsewhere].getD t.1 .archive,
      t.2.1, t.2.2⟩) (by rintro ⟨_ | _, _, _⟩ <;> rfl)

/-- The columns of a record that say what was captured, and the columns that say where it is. -/
def record : Wire BodyRecord :=
  ((Wire.string.prod (Wire.string.prod (Wire.int.prod (Wire.string.prod (Wire.string.prod
    ((Wire.option Wire.string).prod ((Wire.option Wire.string).prod ((Wire.option Wire.nat).prod
      (Wire.option Wire.string))))))))).prod
    (Wire.string.prod (Wire.nat.prod (Wire.nat.prod (path.prod (storage.prod (Wire.bool.prod
      (Wire.string.prod (Wire.bool.prod Wire.string))))))))).map
    (fun r =>
      ((r.event_id, r.request_id, r.observed_at_unix_ms, r.capture_stage, r.protocol, r.upstream,
          r.model, r.status, r.content_type),
        (r.body_sha256, r.body_bytes, r.compressed_bytes, r.archive_path, r.storage, r.protect,
          r.redaction_state, r.threshold_shrunk, r.metadata)))
    (fun t =>
      { event_id := t.1.1
        request_id := t.1.2.1
        observed_at_unix_ms := t.1.2.2.1
        capture_stage := t.1.2.2.2.1
        protocol := t.1.2.2.2.2.1
        upstream := t.1.2.2.2.2.2.1
        model := t.1.2.2.2.2.2.2.1
        status := t.1.2.2.2.2.2.2.2.1
        content_type := t.1.2.2.2.2.2.2.2.2
        body_sha256 := t.2.1
        body_bytes := t.2.2.1
        compressed_bytes := t.2.2.2.1
        archive_path := t.2.2.2.2.1
        storage := t.2.2.2.2.2.1
        protect := t.2.2.2.2.2.2.1
        redaction_state := t.2.2.2.2.2.2.2.1
        threshold_shrunk := t.2.2.2.2.2.2.2.2.1
        metadata := t.2.2.2.2.2.2.2.2.2 })
    (fun _ => rfl)

def manifest : Wire SegmentManifest :=
  (Wire.string.prod (Wire.string.prod (Wire.string.prod (Wire.nat.prod (Wire.nat.prod (Wire.nat.prod
    ((Wire.option Wire.int).prod ((Wire.option Wire.int).prod Wire.bool)))))))).map
    (fun m => (m.schema_version, m.segment_file, m.segment_sha256, m.segment_bytes, m.record_count,
      m.body_bytes, m.first_observed_at_unix_ms, m.last_observed_at_unix_ms, m.sealed))
    (fun t => ⟨t.1, t.2.1, t.2.2.1, t.2.2.2.1, t.2.2.2.2.1, t.2.2.2.2.2.1, t.2.2.2.2.2.2.1,
      t.2.2.2.2.2.2.2.1, t.2.2.2.2.2.2.2.2⟩) (fun _ => rfl)

/-- A running checksum of bytes. -/
def checksum (modulus : ℕ) (bytes : Bytes) : ℕ :=
  bytes.foldl (fun n b => (n * 257 + b.toNat + 1) % modulus) 0

/-- The last `w` hexadecimal digits of a number. -/
def hexDigits : ℕ → ℕ → List Char
  | 0, _ => []
  | w + 1, n => hexDigits w (n / 16) ++ ["0123456789abcdef".toList.getD (n % 16) '0']

end Plain

/-- A codec without compression, with running checksums: 32 bits for a frame, and 64 hexadecimal
digits for a file or a body. -/
def Codec.plain : Codec where
  zstdEncode := id
  zstdDecode := some
  crc32 := fun b => Plain.checksum (256 ^ 4) b % 256 ^ 4
  sha256Hex := fun b => String.ofList (Plain.hexDigits 64 (Plain.checksum (16 ^ 64) b))
  recordToVec := Plain.record.put
  recordFromSlice := Plain.record.read
  manifestToVec := Plain.manifest.put
  zstdDecode_encode := fun _ => rfl
  crc32_lt := fun _ => Nat.mod_lt _ (by decide)
  recordFromSlice_toVec := Plain.record.read_write

end BodyLog

end Switchback
