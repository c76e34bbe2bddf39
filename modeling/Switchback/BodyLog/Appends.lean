import Switchback.BodyLog.Gc
import Switchback.BodyLog.TornTail

/-!
# Appends

The logger appends frames to its open segment, and seals the segment when the storage, the quarter
of an hour or the size asks for a new one.  A write that fails half way leaves its part of the
frame in the file.
-/

namespace Switchback

namespace BodyLog

namespace Appends

open Lib

structure ActiveSegment where
  path : Path
  storage : Storage
  bucket_start_ms : ℤ
  last_write_at_unix_ms : ℤ

/-- The files, and the writer's state.  `next_segment_id` numbers the segments of a process. -/
structure Writer where
  segments : OrdMap Path Bytes
  manifests : OrdMap Path SegmentManifest
  active : Option ActiveSegment
  next_segment_id : ℕ

/-- What fails in a call: the sync before a seal; the manifest; the creation of a segment, before
its file is there or after so many bytes of it; the write of the frame, after so many bytes. -/
structure Faults where
  sync : Bool := false
  manifest : Bool := false
  create : Option (Option ℕ) := none
  write : Option ℕ := none

/-- A record with the body that it describes. -/
structure Capture (c : Codec) where
  record : BodyRecord
  body : Bytes
  describes : Describes c (record, body)

/-- What the logger is called for. -/
inductive Call (c : Codec)
  | append (capture : Capture c) (archive_available : Bool) (faults : Faults)
  | sealActive (faults : Faults)
  | sealIdleAt (now_unix_ms minimum_idle_ms : ℤ) (faults : Faults)

/-! ### The operations -/

/-- `seal_segment`: the file is recovered, and gets its manifest. -/
def sealSegment (c : Codec) (faults : Faults) (path : Path) (w : Writer) :
    Except Error Unit × Writer :=
  match w.segments.get path with
  | none => (.error "No such file or directory", w)
  | some bytes =>
    if faults.sync then (.error "Input/output error", w)
    else
      match scanSegment c true bytes with
      | .error e => (.error e, w)
      | .ok (frames, kept) =>
        let w := { w with segments := w.segments.insert path kept }
        if faults.manifest then (.error "No space left on device", w)
        else
          (.ok (), { w with manifests := w.manifests.insert path (manifestOf c path kept frames)
                            next_segment_id := w.next_segment_id + 1 })

/-- The path of a new segment. -/
def segmentPath (pid : ℕ) (storage : Storage) (bucket_start_ms : ℤ) (sequence : ℕ) : Path where
  root := if storage = .archiveSegment then .archive else .spool
  day := dayFloorMs bucket_start_ms
  file := s!"capture-{bucket_start_ms}-p{pid}-{sequence}.sbcap"

/-- `create_segment`: a new file with the magic. -/
def createSegment (pid : ℕ) (faults : Faults) (storage : Storage) (bucket_start_ms : ℤ)
    (w : Writer) : Except Error ActiveSegment × Writer :=
  let path := segmentPath pid storage bucket_start_ms w.next_segment_id
  let w := { w with next_segment_id := w.next_segment_id + 1 }
  match faults.create with
  | some none => (.error "Permission denied", w)
  | some (some written) =>
    if (w.segments.get path).isSome then (.error "File exists", w)
    else
      (.error "No space left on device",
        { w with segments := w.segments.insert path (segmentMagic.take written) })
  | none =>
    if (w.segments.get path).isSome then (.error "File exists", w)
    else
      (.ok ⟨path, storage, bucket_start_ms, bucket_start_ms⟩,
        { w with segments := w.segments.insert path segmentMagic })

/-- Seal the active segment, if there is one, and create the next. -/
def rotate (c : Codec) (pid : ℕ) (faults : Faults) (storage : Storage) (bucket_start_ms : ℤ)
    (w : Writer) : Except Error ActiveSegment × Writer :=
  match w.active with
  | none => createSegment pid faults storage bucket_start_ms w
  | some active =>
    match sealSegment c faults active.path { w with active := none } with
    | (.error e, w) => (.error e, w)
    | (.ok (), w) => createSegment pid faults storage bucket_start_ms w

/-- The record as it is written to a segment. -/
def placed (record : BodyRecord) (active : ActiveSegment) : BodyRecord :=
  { record with archive_path := active.path, storage := active.storage }

/-- The write at the end of `append_segment_frame`. -/
def writeFrame (c : Codec) (faults : Faults) (observed_at_unix_ms : ℤ) (active : ActiveSegment)
    (frame : SegmentFrame) (w : Writer) : Except Error (Path × SegmentFrame) × Writer :=
  let bytes := (w.segments.get active.path).getD []
  match faults.write with
  | some written =>
    (.error "No space left on device",
      { w with segments := w.segments.insert active.path
                 (bytes ++ (frameBytes c frame).take written)
               active := some active })
  | none =>
    (.ok (active.path, frame),
      { w with segments := w.segments.insert active.path (bytes ++ frameBytes c frame)
               active := some { active with last_write_at_unix_ms := observed_at_unix_ms } })

/-- `CAPTURE_SEGMENT_ROTATE_MS` apart. -/
def bucketStartMs (record : BodyRecord) : ℤ :=
  record.observed_at_unix_ms / segmentRotateMs * segmentRotateMs

/-- The storage of a new segment. -/
def storageFor (archive_available : Bool) : Storage :=
  if archive_available then .archiveSegment else .spoolSegment

/-- The segment takes the record, as to its storage and time. -/
def activeMatches {c : Codec} (capture : Capture c) (archive_available : Bool)
    (active : ActiveSegment) : Bool :=
  active.storage = storageFor archive_available ∧
    active.bucket_start_ms = bucketStartMs capture.record

/-- `segment_would_exceed_limit`, of the segment's file. -/
def wouldExceed (c : Codec) (active : ActiveSegment) (frame : SegmentFrame) (w : Writer) : Bool :=
  segmentWouldExceedLimit ((w.segments.get active.path).elim 0 List.length)
    (frameBytes c frame).length

/-- `append_segment_frame` on an active segment. -/
def appendTo (c : Codec) (pid : ℕ) (capture : Capture c) (faults : Faults)
    (active : ActiveSegment) (w : Writer) : Except Error (Path × SegmentFrame) × Writer :=
  match encodeSegmentFrame c (placed capture.record active) capture.body with
  | .error e => (.error e, { w with active := some active })
  | .ok (indexed, frame) =>
    if wouldExceed c active frame w then
      match rotate c pid faults active.storage (bucketStartMs capture.record)
        { w with active := some active } with
      | (.error e, w) => (.error e, { w with active := none })
      | (.ok fresh, w) =>
        match encodeSegmentFrame c (placed indexed fresh) capture.body with
        | .error e => (.error e, { w with active := none })
        | .ok (_, frame) =>
          writeFrame c faults capture.record.observed_at_unix_ms fresh frame w
    else writeFrame c faults capture.record.observed_at_unix_ms active frame w

/-- `append_segment_frame`: the segment and the frame that were written. -/
def appendSegmentFrame (c : Codec) (pid : ℕ) (capture : Capture c) (archive_available : Bool)
    (faults : Faults) (w : Writer) : Except Error (Path × SegmentFrame) × Writer :=
  match w.active.filter (activeMatches capture archive_available) with
  | some active => appendTo c pid capture faults active w
  | none =>
    match rotate c pid faults (storageFor archive_available) (bucketStartMs capture.record) w with
    | (.error e, w) => (.error e, { w with active := none })
    | (.ok fresh, w) => appendTo c pid capture faults fresh w

def sealActive (c : Codec) (faults : Faults) (w : Writer) : Except Error Unit × Writer :=
  match w.active with
  | none => (.ok (), w)
  | some active => sealSegment c faults active.path { w with active := none }

def sealIdleAt (c : Codec) (now_unix_ms minimum_idle_ms : ℤ) (faults : Faults) (w : Writer) :
    Except Error Unit × Writer :=
  if w.active.any fun active =>
      now_unix_ms - active.last_write_at_unix_ms ≥ max minimum_idle_ms 0 then
    sealActive c faults w
  else (.ok (), w)

/-! ### Runs -/

/-- One call: the frame that it acknowledges, and what it leaves. -/
def step (c : Codec) (pid : ℕ) (w : Writer) : Call c → Option (Path × SegmentFrame) × Writer
  | .append capture archive_available faults =>
    let r := appendSegmentFrame c pid capture archive_available faults w
    (r.1.toOption, r.2)
  | .sealActive faults => (none, (sealActive c faults w).2)
  | .sealIdleAt now_unix_ms minimum_idle_ms faults =>
    (none, (sealIdleAt c now_unix_ms minimum_idle_ms faults w).2)

/-- The frames that the calls acknowledge, and what they leave. -/
def run (c : Codec) (pid : ℕ) : Writer → List (Call c) → List (Path × SegmentFrame) × Writer
  | w, [] => ([], w)
  | w, call :: calls =>
    let r := step c pid w call
    let rest := run c pid r.2 calls
    (r.1.toList ++ rest.1, rest.2)

/-- The call appends to a segment that does not end with a whole frame. -/
def behindTear (c : Codec) (w : Writer) : Call c → Bool
  | .append capture archive_available _ =>
    match w.active.filter (activeMatches capture archive_available) with
    | none => false
    | some active =>
      match encodeSegmentFrame c (placed capture.record active) capture.body with
      | .error _ => false
      | .ok (_, frame) =>
        !wouldExceed c active frame w &&
          !(scanSegment c false ((w.segments.get active.path).getD [])).isOk
  | _ => false

/-- No call appends behind a part of a frame. -/
def Clean (c : Codec) (pid : ℕ) : Writer → List (Call c) → Prop
  | _, [] => True
  | w, call :: calls => behindTear c w call = false ∧ Clean c pid (step c pid w call).2 calls

instance Clean.decidable (c : Codec) (pid : ℕ) :
    (w : Writer) → (calls : List (Call c)) → Decidable (Clean c pid w calls)
  | _, [] => isTrue trivial
  | w, call :: calls =>
    @instDecidableAnd _ _ _ (Clean.decidable c pid (step c pid w call).2 calls)

/-- The frames that were acknowledged for a segment. -/
def ackedIn (acks : List (Path × SegmentFrame)) (path : Path) : List SegmentFrame :=
  (acks.filter fun ack => ack.1 = path).map Prod.snd

/-- Whole frames, the acknowledged ones among them, and perhaps a part of one. -/
def Readable (c : Codec) (acked : List SegmentFrame) (bytes : Bytes) : Prop :=
  ∃ frames p, (∀ f ∈ frames, FrameOk c f) ∧ bytes = segmentBytes c frames ++ p ∧
    (p = [] ∨ TornFrame c p) ∧ acked.Sublist frames

/-- The segment is there, with what was acknowledged for it. -/
def Held (c : Codec) (acks : List (Path × SegmentFrame)) (w : Writer) (path : Path) : Prop :=
  ∃ bytes, w.segments.get path = some bytes ∧ Readable c (ackedIn acks path) bytes

/-- Every segment that a frame was acknowledged for is there. -/
def AckedHeld (c : Codec) (acks : List (Path × SegmentFrame)) (w : Writer) : Prop :=
  ∀ path, ackedIn acks path ≠ [] → Held c acks w path

/-- The invariant of a clean run: the active segment is there, too. -/
structure Inv (c : Codec) (acks : List (Path × SegmentFrame)) (w : Writer) : Prop where
  acked : AckedHeld c acks w
  active : ∀ a, w.active = some a → Held c acks w a.path

variable {c : Codec} {acks : List (Path × SegmentFrame)} {w : Writer}

variable {bytes : Bytes} {acked frames : List SegmentFrame} {frame : SegmentFrame} {pid : ℕ}

theorem Held.insert {path path' : Path} (h : Held c acks w path)
    (hbytes : path' = path → Readable c (ackedIn acks path) bytes) :
    Held c acks { w with segments := w.segments.insert path' bytes } path := by
  obtain ⟨old, hold, hread⟩ := h
  by_cases heq : path' = path
  · subst heq
    exact ⟨bytes, by simp, hbytes rfl⟩
  · refine ⟨old, ?_, hread⟩
    rw [OrdMap.get_insert, if_neg (fun h => heq h.symm)]
    exact hold

/-- What the reader makes of a segment that is there. -/
theorem Readable.scan (h : Readable c acked bytes) :
    ∃ frames, scanSegment c true bytes = .ok (frames, segmentBytes c frames) ∧
      (∀ f ∈ frames, FrameOk c f) ∧ acked.Sublist frames := by
  obtain ⟨frames, p, hok, rfl, hp, hsub⟩ := h
  refine ⟨frames, ?_, hok, hsub⟩
  rcases hp with rfl | htorn
  · rw [List.append_nil]
    exact scanSegment_whole hok true
  · exact scanSegment_torn hok htorn

/-- A segment that is read without recovery ends with a whole frame. -/
theorem Readable.whole (h : Readable c acked bytes)
    (hok : (scanSegment c false bytes).isOk = true) :
    ∃ frames, bytes = segmentBytes c frames ∧ (∀ f ∈ frames, FrameOk c f) ∧
      acked.Sublist frames := by
  obtain ⟨frames, p, hframes, rfl, hp, hsub⟩ := h
  rcases hp with rfl | htorn
  · exact ⟨frames, List.append_nil _, hframes, hsub⟩
  · obtain ⟨e, he⟩ := scanSegment_torn_error hframes htorn
    rw [he] at hok
    cases hok

/-- Whole frames are readable. -/
theorem readable_whole (hok : ∀ f ∈ frames, FrameOk c f)
    (hsub : acked.Sublist frames) : Readable c acked (segmentBytes c frames) :=
  ⟨frames, [], hok, (List.append_nil _).symm, Or.inl rfl, hsub⟩

/-! ### What each operation keeps -/

theorem sealSegment_inv (h : AckedHeld c acks w) (faults : Faults) (path : Path) :
    AckedHeld c acks (sealSegment c faults path w).2 ∧
      (sealSegment c faults path w).2.active = w.active := by
  rw [sealSegment]
  cases hget : w.segments.get path with
  | none => exact ⟨h, rfl⟩
  | some bytes =>
    dsimp only
    by_cases hsync : faults.sync = true
    · rw [if_pos hsync]
      exact ⟨h, rfl⟩
    · rw [if_neg hsync]
      cases hscan : scanSegment c true bytes with
      | error e => exact ⟨h, rfl⟩
      | ok read =>
        obtain ⟨frames, kept⟩ := read
        have hkept : AckedHeld c acks { w with segments := w.segments.insert path kept } := by
          intro path' hacked
          refine (h path' hacked).insert ?_
          rintro rfl
          obtain ⟨old, hold, hread⟩ := h path hacked
          obtain rfl : bytes = old := by
            rw [hget] at hold
            exact Option.some.inj hold
          obtain ⟨frames', hscan', hok, hsub⟩ := hread.scan
          rw [hscan] at hscan'
          cases hscan'
          exact readable_whole hok hsub
        dsimp only
        split_ifs with hmanifest
        · exact ⟨hkept, rfl⟩
        · exact ⟨fun path' hacked => hkept path' hacked, rfl⟩

theorem sealSegment_held {path : Path} (h : Held c acks w path) :
    (sealSegment c {} path w).1 = .ok () := by
  obtain ⟨bytes, hget, hread⟩ := h
  obtain ⟨frames, hscan, -, -⟩ := hread.scan
  simp only [sealSegment, hget, hscan, Bool.false_eq_true, if_false]

theorem createSegment_inv (h : AckedHeld c acks w) (pid : ℕ) (faults : Faults) (storage : Storage)
    (bucket : ℤ) :
    AckedHeld c acks (createSegment pid faults storage bucket w).2 ∧
      ∀ fresh, (createSegment pid faults storage bucket w).1 = .ok fresh →
        (createSegment pid faults storage bucket w).2.segments.get fresh.path =
            some (segmentBytes c []) ∧ ackedIn acks fresh.path = [] := by
  -- a path without a file has nothing acknowledged
  have hfree (path : Path) (hpath : ¬ (w.segments.get path).isSome = true) :
      ackedIn acks path = [] := by
    by_contra hacked
    obtain ⟨bytes, hget, -⟩ := h path hacked
    rw [hget] at hpath
    exact hpath rfl
  have hinsert (n : ℕ) (path : Path) (bytes : Bytes)
      (hpath : ¬ (w.segments.get path).isSome = true) :
      AckedHeld c acks
        { w with next_segment_id := n, segments := w.segments.insert path bytes } := by
    intro path' hacked
    refine Held.insert (h path' hacked) ?_
    rintro rfl
    exact absurd (hfree path hpath) hacked
  rw [createSegment]
  dsimp only
  cases hcreate : faults.create with
  | none =>
    dsimp only
    split_ifs with hpath
    · exact ⟨h, fun _ hfresh => by cases hfresh⟩
    · refine ⟨hinsert _ _ _ hpath, ?_⟩
      rintro fresh hfresh
      cases hfresh
      exact ⟨by simp [segmentBytes], hfree _ hpath⟩
  | some fault =>
    cases fault with
    | none => exact ⟨h, fun _ hfresh => by cases hfresh⟩
    | some written =>
      dsimp only
      split_ifs with hpath
      · exact ⟨h, fun _ hfresh => by cases hfresh⟩
      · exact ⟨hinsert _ _ _ hpath, fun _ hfresh => by cases hfresh⟩

theorem rotate_inv (h : AckedHeld c acks w) (pid : ℕ) (faults : Faults) (storage : Storage)
    (bucket : ℤ) :
    AckedHeld c acks (rotate c pid faults storage bucket w).2 ∧
      ∀ fresh, (rotate c pid faults storage bucket w).1 = .ok fresh →
        (rotate c pid faults storage bucket w).2.segments.get fresh.path =
            some (segmentBytes c []) ∧ ackedIn acks fresh.path = [] := by
  rw [rotate]
  cases w.active with
  | none => exact createSegment_inv h pid faults storage bucket
  | some active =>
    have hseal := (@sealSegment_inv c acks { w with active := none } h faults active.path).1
    dsimp only
    cases hres : sealSegment c faults active.path { w with active := none } with
    | mk result w' =>
      rw [hres] at hseal
      cases result with
      | error e => exact ⟨hseal, fun _ hfresh => by cases hfresh⟩
      | ok _ => exact createSegment_inv hseal pid faults storage bucket

theorem ackedIn_append (acks acks' : List (Path × SegmentFrame)) (path : Path) :
    ackedIn (acks ++ acks') path = ackedIn acks path ++ ackedIn acks' path := by
  rw [ackedIn, List.filter_append, List.map_append]
  rfl

theorem readable_write (hok : ∀ f ∈ frames, FrameOk c f)
    (hsub : acked.Sublist frames) (hframe : FrameOk c frame)
    (written : ℕ) :
    Readable c acked (segmentBytes c frames ++ (frameBytes c frame).take written) := by
  have hconcat : ∀ f ∈ frames ++ [frame], FrameOk c f := by
    intro f hf
    rcases List.mem_append.1 hf with hf | hf
    · exact hok f hf
    · rw [List.mem_singleton.1 hf]
      exact hframe
  by_cases hwhole : (frameBytes c frame).take written = frameBytes c frame
  · rw [hwhole, ← segmentBytes_concat]
    exact readable_whole hconcat (hsub.trans (List.sublist_append_left _ _))
  · refine ⟨frames, _, hok, rfl, ?_, hsub⟩
    by_cases hnil : (frameBytes c frame).take written = []
    · exact Or.inl hnil
    · exact Or.inr ⟨hnil, frame, hframe, List.take_prefix _ _, hwhole⟩

theorem writeFrame_inv (h : AckedHeld c acks w) {active : ActiveSegment}
    (hget : w.segments.get active.path = some (segmentBytes c frames))
    (hok : ∀ f ∈ frames, FrameOk c f) (hsub : (ackedIn acks active.path).Sublist frames)
    (hframe : FrameOk c frame) (faults : Faults) (observed : ℤ) :
    Inv c (acks ++ (writeFrame c faults observed active frame w).1.toOption.toList)
      (writeFrame c faults observed active frame w).2 := by
  have hheld : Held c acks w active.path := ⟨_, hget, readable_whole hok hsub⟩
  rw [writeFrame, hget]
  dsimp only [Option.getD_some]
  cases faults.write with
  | some written =>
    have hread := readable_write hok hsub hframe written
    dsimp only [Except.toOption, Option.toList]
    rw [List.append_nil]
    constructor
    · intro path hacked
      exact (h path hacked).insert fun heq => by subst heq; exact hread
    · rintro a ha
      cases ha
      exact hheld.insert fun _ => hread
  | none =>
    -- the frame is acknowledged for the active segment, and for no other
    have hself : ackedIn (acks ++ [(active.path, frame)]) active.path =
        ackedIn acks active.path ++ [frame] := by
      rw [ackedIn_append]
      simp [ackedIn]
    have hother (path : Path) (hne : active.path ≠ path) :
        ackedIn (acks ++ [(active.path, frame)]) path = ackedIn acks path := by
      rw [ackedIn_append]
      simp [ackedIn, hne]
    have hactive : Held c (acks ++ [(active.path, frame)])
        { w with
          segments := w.segments.insert active.path (segmentBytes c frames ++ frameBytes c frame)
          active := some { active with last_write_at_unix_ms := observed } } active.path := by
      refine ⟨_, by rw [OrdMap.get_insert, if_pos rfl], ?_⟩
      rw [hself, ← segmentBytes_concat]
      refine readable_whole ?_ (hsub.append (List.Sublist.refl _))
      intro f hf
      rcases List.mem_append.1 hf with hf | hf
      · exact hok f hf
      · rw [List.mem_singleton.1 hf]
        exact hframe
    dsimp only [Except.toOption, Option.toList]
    constructor
    · intro path hacked
      by_cases heq : active.path = path
      · rw [← heq]
        exact hactive
      · rw [hother path heq] at hacked
        obtain ⟨bytes, hbytes, hread⟩ := h path hacked
        refine ⟨bytes, ?_, ?_⟩
        · rw [OrdMap.get_insert, if_neg (fun h => heq h.symm)]
          exact hbytes
        · rw [hother path heq]
          exact hread
    · rintro a ha
      cases ha
      exact hactive

theorem frameOk_of_encode {capture : Capture c} {record indexed : BodyRecord}
    (hbytes : record.body_bytes = capture.record.body_bytes)
    (hsha : record.body_sha256 = capture.record.body_sha256)
    (h : encodeSegmentFrame c record capture.body = .ok (indexed, frame)) : FrameOk c frame :=
  (encodeSegmentFrame_ok (hbytes.trans capture.describes.1) (hsha.trans capture.describes.2)
    h).2.2

theorem appendTo_inv {capture : Capture c} {faults : Faults} {active : ActiveSegment}
    (h : AckedHeld c acks w) (hactive : Held c acks w active.path)
    (hclean : ∀ indexed frame,
      encodeSegmentFrame c (placed capture.record active) capture.body = .ok (indexed, frame) →
      wouldExceed c active frame w = false →
      (scanSegment c false ((w.segments.get active.path).getD [])).isOk = true) :
    Inv c (acks ++ (appendTo c pid capture faults active w).1.toOption.toList)
      (appendTo c pid capture faults active w).2 := by
  rw [appendTo]
  cases hencode : encodeSegmentFrame c (placed capture.record active) capture.body with
  | error e =>
    dsimp only [Except.toOption, Option.toList]
    rw [List.append_nil]
    exact ⟨h, fun a ha => by cases ha; exact hactive⟩
  | ok encoded =>
    obtain ⟨indexed, frame⟩ := encoded
    have hdescribes : Describes c (placed capture.record active, capture.body) :=
      capture.describes
    obtain ⟨⟨k, hindexed⟩, -, hframe⟩ :=
      @encodeSegmentFrame_ok c _ _ _ _ hdescribes.1 hdescribes.2 hencode
    dsimp only
    by_cases hexceed : wouldExceed c active frame w = true
    · rw [if_pos hexceed]
      obtain ⟨hrot, hfresh⟩ := @rotate_inv c acks { w with active := some active } h pid faults
        active.storage (bucketStartMs capture.record)
      cases hres : rotate c pid faults active.storage (bucketStartMs capture.record)
          { w with active := some active } with
      | mk result w' =>
        rw [hres] at hrot hfresh
        cases result with
        | error e =>
          dsimp only [Except.toOption, Option.toList]
          rw [List.append_nil]
          exact ⟨hrot, fun a ha => by cases ha⟩
        | ok fresh =>
          obtain ⟨hget, hnone⟩ := hfresh fresh rfl
          dsimp only
          cases hencode' : encodeSegmentFrame c (placed indexed fresh) capture.body with
          | error e =>
            dsimp only [Except.toOption, Option.toList]
            rw [List.append_nil]
            exact ⟨hrot, fun a ha => by cases ha⟩
          | ok encoded' =>
            obtain ⟨indexed', frame'⟩ := encoded'
            refine writeFrame_inv hrot hget (by simp) (by rw [hnone]) ?_ _ _
            refine frameOk_of_encode ?_ ?_ hencode'
            · rw [hindexed]
              rfl
            · rw [hindexed]
              rfl
    · rw [if_neg hexceed]
      obtain ⟨bytes, hget, hread⟩ := hactive
      have hscan := hclean indexed frame hencode (by simpa using hexceed)
      rw [hget, Option.getD_some] at hscan
      obtain ⟨frames, rfl, hok, hsub⟩ := hread.whole hscan
      exact writeFrame_inv h hget hok hsub hframe _ _

/-- **What a call keeps**, unless it appends behind a part of a frame. -/
theorem step_inv (h : Inv c acks w) {call : Call c} (hclean : behindTear c w call = false) :
    Inv c (acks ++ (step c pid w call).1.toList) (step c pid w call).2 := by
  have hseal (faults : Faults) : Inv c acks (sealActive c faults w).2 := by
    rw [sealActive]
    cases hactive : w.active with
    | none => exact h
    | some active =>
      obtain ⟨hacked, hnone⟩ := @sealSegment_inv c acks { w with active := none } h.acked faults
        active.path
      exact ⟨hacked, fun a ha => by rw [hnone] at ha; cases ha⟩
  cases call with
  | append capture archive_available faults =>
    dsimp only [step]
    rw [appendSegmentFrame]
    rw [behindTear] at hclean
    cases hmatch : w.active.filter (activeMatches capture archive_available) with
    | some active =>
      rw [hmatch] at hclean
      rw [Option.filter_eq_some_iff] at hmatch
      refine appendTo_inv h.acked (h.active active hmatch.1) ?_
      intro indexed frame hencode hexceed
      dsimp only at hclean
      rw [hencode] at hclean
      simpa [hexceed] using hclean
    | none =>
      dsimp only
      obtain ⟨hrot, hfresh⟩ := rotate_inv h.acked pid faults (storageFor archive_available)
        (bucketStartMs capture.record)
      cases hres : rotate c pid faults (storageFor archive_available)
          (bucketStartMs capture.record) w with
      | mk result w' =>
        rw [hres] at hrot hfresh
        cases result with
        | error e =>
          dsimp only [Except.toOption, Option.toList]
          rw [List.append_nil]
          exact ⟨hrot, fun a ha => by cases ha⟩
        | ok fresh =>
          obtain ⟨hget, hnone⟩ := hfresh fresh rfl
          have hok : ∀ f ∈ ([] : List SegmentFrame), FrameOk c f := by simp
          refine appendTo_inv hrot ⟨_, hget, readable_whole hok (by rw [hnone])⟩ ?_
          intro _ _ _ _
          rw [hget, Option.getD_some, scanSegment_whole hok]
          rfl
  | sealActive faults =>
    simpa [step] using hseal faults
  | sealIdleAt now_unix_ms minimum_idle_ms faults =>
    dsimp only [step]
    rw [sealIdleAt]
    split_ifs
    · simpa using hseal faults
    · simpa using h

/-- **What a clean run keeps.** -/
theorem run_inv {calls : List (Call c)} (h : Inv c acks w) (hclean : Clean c pid w calls) :
    Inv c (acks ++ (run c pid w calls).1) (run c pid w calls).2 := by
  induction calls generalizing acks w with
  | nil => simpa [run] using h
  | cons call calls ih =>
    rw [Clean] at hclean
    rw [run, ← List.append_assoc]
    exact ih (step_inv h hclean.1) hclean.2

/-- **A failed append cannot poison a segment**, in a run where nothing is appended behind a part
of a frame: whatever was acknowledged is read back, in its order, and the segment can be sealed. -/
theorem acknowledged_readable {pid : ℕ} (hidle : w.active = none) {calls : List (Call c)}
    (hclean : Clean c pid w calls) :
    ∀ ack ∈ (run c pid w calls).1, ∃ bytes frames kept,
      (run c pid w calls).2.segments.get ack.1 = some bytes ∧
      scanSegment c true bytes = .ok (frames, kept) ∧ ack.2 ∈ frames ∧
      (ackedIn (run c pid w calls).1 ack.1).Sublist frames ∧
      (sealSegment c {} ack.1 (run c pid w calls).2).1 = .ok () := by
  have hinit : Inv c [] w := ⟨fun _ h => absurd rfl h, fun a ha => by rw [hidle] at ha; cases ha⟩
  have hinv := run_inv hinit hclean
  rw [List.nil_append] at hinv
  intro ack hack
  have hmem : ack.2 ∈ ackedIn (run c pid w calls).1 ack.1 :=
    List.mem_map_of_mem (List.mem_filter.2 ⟨hack, by simp⟩)
  have hheld := hinv.acked ack.1 (List.ne_nil_of_mem hmem)
  obtain ⟨bytes, hget, hread⟩ := hheld
  obtain ⟨frames, hscan, -, hsub⟩ := hread.scan
  exact ⟨bytes, frames, _, hget, hscan, hsub.subset hmem, hsub,
    sealSegment_held ⟨bytes, hget, hread⟩⟩

/-- A captured request. -/
def greeting (event_id : String) : Capture .plain where
  record := { hello 438 with event_id := event_id }
  body := [104, 105]
  describes := hello_describes 438

/-- A logger that starts. -/
def idle : Writer := ⟨.empty, .empty, none, 1⟩

/-- The disk is full for the first capture, and the segment is sealed before the second. -/
def sealedBetween : List (Call .plain) :=
  [.append (greeting "e1") true { write := some 1 }, .sealActive {},
    .append (greeting "e2") true {}]

theorem acknowledged_readable_sealed :
    ∃ ack ∈ (run .plain 7 idle sealedBetween).1, ∃ bytes frames kept,
      (run .plain 7 idle sealedBetween).2.segments.get ack.1 = some bytes ∧
      scanSegment .plain true bytes = .ok (frames, kept) ∧ ack.2 ∈ frames ∧
      (ackedIn (run .plain 7 idle sealedBetween).1 ack.1).Sublist frames ∧
      (sealSegment .plain {} ack.1 (run .plain 7 idle sealedBetween).2).1 = .ok () := by
  have hsome : (run .plain 7 idle sealedBetween).1.isEmpty = false := by decide +kernel
  obtain ⟨ack, hack⟩ := List.exists_mem_of_ne_nil _ (List.isEmpty_eq_false_iff.1 hsome)
  exact ⟨ack, hack, acknowledged_readable rfl (by decide +kernel) ack hack⟩

/-- The disk is full for the first capture, and the second goes to the same segment. -/
def spaceAgain : List (Call .plain) :=
  [.append (greeting "e1") true { write := some 1 }, .append (greeting "e2") true {}]

theorem append_behind_tear_lost :
    ¬ ∀ (c : Codec) (pid : ℕ) (w : Writer) (calls : List (Call c)), w.active = none →
      ∀ ack ∈ (run c pid w calls).1, ∃ bytes frames kept,
        (run c pid w calls).2.segments.get ack.1 = some bytes ∧
        scanSegment c true bytes = .ok (frames, kept) ∧ ack.2 ∈ frames := by
  intro h
  have hlost : ∃ ack ∈ (run .plain 7 idle spaceAgain).1,
      ((run .plain 7 idle spaceAgain).2.segments.get ack.1).any
        (fun bytes => (scanSegment .plain true bytes).isOk) = false := by decide +kernel
  obtain ⟨ack, hack, hunread⟩ := hlost
  obtain ⟨bytes, frames, kept, hget, hscan, -⟩ := h .plain 7 idle spaceAgain rfl ack hack
  rw [hget, Option.any_some, hscan] at hunread
  cases hunread

end Appends

end BodyLog

end Switchback
