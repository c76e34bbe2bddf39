import Switchback.BodyLog.Segment
import Switchback.Lib.Fallible

/-!
# Torn tails

A segment that was being written when its process died ends somewhere inside a frame.  The reader
keeps the frames before the cut, whatever byte it is at.
-/

namespace Switchback

namespace BodyLog

open Lib

/-- The frames that end within the first `n` bytes of the file. -/
def wholeFrames (c : Codec) (n : ℕ) (frames : List SegmentFrame) : List SegmentFrame :=
  Journal.within (frameBytes c) (n - segmentMagic.length) frames

variable {c : Codec} {frames : List SegmentFrame}

theorem scanSegment_torn_error (h : ∀ f ∈ frames, FrameOk c f) {p : Bytes} (hp : TornFrame c p) :
    ∃ e, scanSegment c false (segmentBytes c frames ++ p) = .error e := by
  obtain ⟨hne, f, hf, hpre, hpart⟩ := hp
  have hlong := length_segmentBytes_ge c frames p
  have hmagic := take_segmentBytes c frames p
  have hdrop := drop_segmentBytes c frames p
  have hfuel : (((frames.map fun f => (f, frameBytes c f)).map Prod.snd).flatten ++ p).length <
      (segmentBytes c frames ++ p).length + 1 := by
    rw [← hdrop, List.length_drop]
    omega
  obtain ⟨e, hscan⟩ :=
    Journal.scan_torn (encodes_frames h) (encodes_frame hf) hpre hne hpart hfuel
  refine ⟨e, ?_⟩
  rw [scanSegment, if_neg hlong, if_neg (not_not.2 hmagic), hdrop, hscan]
  rfl

theorem take_segmentBytes_eq
    (h : ∀ f ∈ frames, FrameOk c f) {n : ℕ} (hn : segmentMagic.length ≤ n) :
    ∃ p, (segmentBytes c frames).take n = segmentBytes c (wholeFrames c n frames) ++ p ∧
      (p = [] ∨ TornFrame c p) := by
  obtain ⟨p, heq, hp⟩ :=
    @Journal.take_flatten _ (frameBytes c) (n - segmentMagic.length) frames
  refine ⟨p, ?_, ?_⟩
  · rw [segmentBytes, List.take_append, List.take_of_length_le hn, heq, segmentBytes,
      List.append_assoc]
    rfl
  · by_cases hne : p = []
    · exact Or.inl hne
    · obtain ⟨f, hf, hpre, hpart⟩ := hp hne
      exact Or.inr ⟨hne, f, h f hf, hpre, hpart⟩

/-- **A cut file**: with recovery, the frames before the cut, and the file without the rest;
without, an error unless the cut is at the end of a frame. -/
theorem scanSegment_take (h : ∀ f ∈ frames, FrameOk c f)
    {n : ℕ} (hn : segmentMagic.length ≤ n) (hlen : n ≤ (segmentBytes c frames).length) :
    scanSegment c true ((segmentBytes c frames).take n) =
        .ok (wholeFrames c n frames, segmentBytes c (wholeFrames c n frames)) ∧
      ((∃ read, scanSegment c false ((segmentBytes c frames).take n) = .ok read) ↔
        ∃ m, n = (segmentBytes c (frames.take m)).length) := by
  have hwhole : ∀ f ∈ wholeFrames c n frames, FrameOk c f := fun f hf =>
    h f ((Journal.within_prefix _ _).subset hf)
  obtain ⟨p, heq, hp⟩ := take_segmentBytes_eq h hn
  refine ⟨?_, ?_, ?_⟩
  · rw [heq]
    rcases hp with rfl | htorn
    · rw [List.append_nil]
      exact scanSegment_whole hwhole true
    · exact scanSegment_torn hwhole htorn
  · rintro ⟨read, hread⟩
    rw [heq] at hread
    rcases hp with rfl | htorn
    · refine ⟨(wholeFrames c n frames).length, ?_⟩
      have htake : frames.take (wholeFrames c n frames).length = wholeFrames c n frames :=
        (List.prefix_iff_eq_take.1 (Journal.within_prefix _ _)).symm
      have hbytes := congrArg List.length heq
      rw [List.append_nil, List.length_take, Nat.min_eq_left hlen] at hbytes
      rw [htake]
      exact hbytes
    · obtain ⟨e, he⟩ := scanSegment_torn_error hwhole htorn
      rw [he] at hread
      cases hread
  · rintro ⟨m, rfl⟩
    have hcut : (segmentBytes c frames).take (segmentBytes c (frames.take m)).length =
        segmentBytes c (frames.take m) := by
      have hsplit : segmentBytes c frames =
          segmentBytes c (frames.take m) ++ ((frames.drop m).map (frameBytes c)).flatten := by
        rw [segmentBytes, segmentBytes, List.append_assoc, ← List.flatten_append, ← List.map_append,
          List.take_append_drop]
      rw [hsplit, List.take_left]
    rw [hcut]
    exact ⟨_, scanSegment_whole (fun f hf => h f (List.mem_of_mem_take hf)) false⟩

/-- The frame of a record: the record up to its compressed size, and the body. -/
def Frames (p : BodyRecord × Bytes) (f : SegmentFrame) : Prop :=
  f.body = p.2 ∧ ∃ k, f.record = { p.1 with compressed_bytes := k }

/-- The record describes the body, as every record does that the logger makes. -/
def Describes (c : Codec) (p : BodyRecord × Bytes) : Prop :=
  p.1.body_bytes = p.2.length ∧ p.1.body_sha256 = c.sha256Hex p.2

theorem encoded_frames {pairs : List (BodyRecord × Bytes)}
    {encoded : List (BodyRecord × SegmentFrame)} (hpairs : ∀ p ∈ pairs, Describes c p)
    (h : pairs.mapM (fun p => encodeSegmentFrame c p.1 p.2) = .ok encoded) :
    List.Forall₂ Frames pairs (encoded.map Prod.snd) ∧
      ∀ f ∈ encoded.map Prod.snd, FrameOk c f := by
  rw [mapM_eq_ok_iff] at h
  induction h with
  | nil => exact ⟨.nil, by simp⟩
  | @cons p e pairs encoded hp hrest ih =>
    rw [List.forall_mem_cons] at hpairs
    obtain ⟨hforall, hok⟩ := ih hpairs.2
    obtain ⟨-, ⟨k, hk⟩, hframe⟩ := encodeSegmentFrame_ok hpairs.1.1 hpairs.1.2 hp
    rw [List.map_cons, List.forall_mem_cons]
    refine ⟨.cons ⟨?_, k, ?_⟩ hforall, hframe, hok⟩
    · rw [hk]
    · rw [hk]

/-- **Segment files decode what was encoded**, and a torn tail loses the torn frame only. -/
theorem segment_round_trip {c : Codec} {pairs : List (BodyRecord × Bytes)}
    {encoded : List (BodyRecord × SegmentFrame)} (hpairs : ∀ p ∈ pairs, Describes c p)
    (hencoded : pairs.mapM (fun p => encodeSegmentFrame c p.1 p.2) = .ok encoded) :
    let frames := encoded.map Prod.snd
    List.Forall₂ Frames pairs frames ∧
      (∀ recover_tail, scanSegment c recover_tail (segmentBytes c frames) =
        .ok (frames, segmentBytes c frames)) ∧
      ∀ n, 8 ≤ n → n ≤ (segmentBytes c frames).length →
        scanSegment c true ((segmentBytes c frames).take n) =
            .ok (wholeFrames c n frames, segmentBytes c (wholeFrames c n frames)) ∧
          ((∃ read, scanSegment c false ((segmentBytes c frames).take n) = .ok read) ↔
            ∃ m, n = (segmentBytes c (frames.take m)).length) := by
  obtain ⟨hforall, hok⟩ := encoded_frames hpairs hencoded
  exact ⟨hforall, scanSegment_whole hok, fun n hn hlen => scanSegment_take hok hn hlen⟩

/-- The record of a captured request. -/
def hello (compressed_bytes : ℕ) : BodyRecord :=
  { event_id := "e1"
    request_id := "r1"
    observed_at_unix_ms := 1000
    capture_stage := "tap"
    protocol := "chat"
    upstream := none
    model := none
    status := none
    content_type := none
    body_sha256 := "00000000000000000000000000000000000000000000000000000000000069d3"
    body_bytes := 2
    compressed_bytes := compressed_bytes
    archive_path := .inArchive 0 "1.sbcap"
    storage := .archiveSegment
    protect := true
    redaction_state := "raw"
    threshold_shrunk := false
    metadata := "0" }

theorem hello_describes (n : ℕ) : Describes .plain (hello n, [104, 105]) := by
  have hsha : "00000000000000000000000000000000000000000000000000000000000069d3" =
      Codec.plain.sha256Hex [104, 105] := by decide +kernel
  exact ⟨rfl, hsha⟩

/-- The record of another request. -/
def bye (compressed_bytes : ℕ) : BodyRecord :=
  { hello compressed_bytes with
    event_id := "e2"
    request_id := "r2"
    body_sha256 := "00000000000000000000000000000000000000000000000000000000000063dd" }

def greetings : List (BodyRecord × Bytes) := [(hello 386, [104, 105]), (bye 386, [98, 121])]

def greetingFrames : List SegmentFrame := greetings.map fun p => ⟨p.1, p.2⟩

theorem greetings_describe : ∀ p ∈ greetings, Describes .plain p := by
  have hsha : "00000000000000000000000000000000000000000000000000000000000063dd" =
      Codec.plain.sha256Hex [98, 121] := by decide +kernel
  have hbye : Describes .plain (bye 386, [98, 121]) := ⟨rfl, hsha⟩
  exact List.forall_mem_cons.2 ⟨hello_describes 386, List.forall_mem_singleton.2 hbye⟩

theorem greetings_encode : greetings.mapM (fun p => encodeSegmentFrame .plain p.1 p.2) =
    .ok (greetings.map fun p => (p.1, ⟨p.1, p.2⟩)) := by
  decide +kernel

/-- A cut in the second frame keeps the first. -/
theorem segment_round_trip_hello :
    List.Forall₂ Frames greetings greetingFrames ∧
      (∀ recover_tail, scanSegment .plain recover_tail (segmentBytes .plain greetingFrames) =
        .ok (greetingFrames, segmentBytes .plain greetingFrames)) ∧
      scanSegment .plain true ((segmentBytes .plain greetingFrames).take 500) =
        .ok ([⟨hello 386, [104, 105]⟩], segmentBytes .plain [⟨hello 386, [104, 105]⟩]) := by
  have hkept : wholeFrames .plain 500 greetingFrames = [⟨hello 386, [104, 105]⟩] := by
    decide +kernel
  obtain ⟨hframes, hwhole, hcut⟩ := segment_round_trip greetings_describe greetings_encode
  exact ⟨hframes, hwhole, hkept ▸ (hcut 500 (by decide) (by decide +kernel)).1⟩

def readBodyFromSegment (c : Codec) (bytes : Bytes) (body_sha256 : Sha) : Except Error Bytes :=
  match scanSegment c false bytes with
  | .error e => .error e
  | .ok (frames, _) =>
    match frames.find? fun f => f.record.body_sha256 = body_sha256 with
    | some f => .ok f.body
    | none => .error "body blob not found in capture segment"

/-- **A body is read back after a crash** exactly when its frame is whole, unless another body of
the segment has its digest. -/
theorem recovered_body_iff {pairs : List (BodyRecord × Bytes)}
    {encoded : List (BodyRecord × SegmentFrame)} (hpairs : ∀ p ∈ pairs, Describes c p)
    (hencoded : pairs.mapM (fun p => encodeSegmentFrame c p.1 p.2) = .ok encoded) {n : ℕ}
    (hn : 8 ≤ n) (hlen : n ≤ (segmentBytes c (encoded.map Prod.snd)).length) {body : Bytes}
    (hsha : ∀ e ∈ encoded, c.sha256Hex e.2.body = c.sha256Hex body → e.2.body = body) :
    let kept := wholeFrames c n (encoded.map Prod.snd)
    ∃ recovered, scanSegment c true ((segmentBytes c (encoded.map Prod.snd)).take n) =
        .ok (kept, recovered) ∧
      (readBodyFromSegment c recovered (c.sha256Hex body) = .ok body ↔
        ∃ f ∈ kept, f.body = body) := by
  intro kept
  obtain ⟨-, hok⟩ := encoded_frames hpairs hencoded
  have hmem : ∀ f ∈ kept, f ∈ encoded.map Prod.snd := fun f hf =>
    (Journal.within_prefix _ _).subset hf
  refine ⟨_, (scanSegment_take hok hn hlen).1, ?_⟩
  rw [readBodyFromSegment, scanSegment_whole (fun f hf => hok f (hmem f hf)) false]
  dsimp only
  cases hfind : kept.find? fun f => f.record.body_sha256 = c.sha256Hex body with
  | none =>
    refine ⟨(fun h => by cases h), ?_⟩
    rintro ⟨f, hf, rfl⟩
    have hother := List.find?_eq_none.1 hfind f hf
    exact absurd (hok f (hmem f hf)).sha_eq (by simpa using hother)
  | some g =>
    have hg := List.mem_of_find?_eq_some hfind
    have hsame : g.record.body_sha256 = c.sha256Hex body := by simpa using List.find?_some hfind
    obtain ⟨e, he, heq⟩ := List.mem_map.1 (hmem g hg)
    have hbody : g.body = body := by
      rw [(hok g (hmem g hg)).sha_eq, ← heq] at hsame
      exact heq ▸ hsha e he hsame
    exact ⟨fun _ => ⟨g, hg, hbody⟩, fun _ => congrArg Except.ok hbody⟩

/-- Of two bodies, the one whose frame is behind the cut is lost. -/
theorem recovered_body_hello :
    (∃ recovered, scanSegment .plain true ((segmentBytes .plain greetingFrames).take 500) =
        .ok ([⟨hello 386, [104, 105]⟩], recovered) ∧
      readBodyFromSegment .plain recovered (Codec.plain.sha256Hex [104, 105]) = .ok [104, 105]) ∧
    ∃ recovered, scanSegment .plain true ((segmentBytes .plain greetingFrames).take 500) =
        .ok ([⟨hello 386, [104, 105]⟩], recovered) ∧
      readBodyFromSegment .plain recovered (Codec.plain.sha256Hex [98, 121]) ≠ .ok [98, 121] := by
  have hkept : wholeFrames .plain 500 greetingFrames = [⟨hello 386, [104, 105]⟩] := by
    decide +kernel
  have hsha {body : Bytes} (hbody : body = [104, 105] ∨ body = [98, 121]) :
      ∀ e ∈ greetings.map fun p => (p.1, (⟨p.1, p.2⟩ : SegmentFrame)),
        Codec.plain.sha256Hex e.2.body = Codec.plain.sha256Hex body → e.2.body = body := by
    rcases hbody with rfl | rfl <;> decide +kernel
  obtain ⟨recovered, hscan, hread⟩ := recovered_body_iff greetings_describe greetings_encode
    (by decide : 8 ≤ 500) (by decide +kernel) (hsha (.inl rfl))
  obtain ⟨recovered', hscan', hread'⟩ := recovered_body_iff greetings_describe greetings_encode
    (by decide : 8 ≤ 500) (by decide +kernel) (hsha (.inr rfl))
  change _ = Except.ok (wholeFrames .plain 500 greetingFrames, _) at hscan hscan'
  change _ ↔ ∃ f ∈ wholeFrames .plain 500 greetingFrames, _ at hread hread'
  rw [hkept] at hscan hscan' hread hread'
  exact ⟨⟨recovered, hscan, hread.2 ⟨_, List.mem_singleton_self _, rfl⟩⟩,
    recovered', hscan', fun h => by simpa using hread'.1 h⟩

end BodyLog

end Switchback
