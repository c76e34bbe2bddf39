import Switchback.Adapters.Boundary
import Switchback.Lib.Machine

/-!
# Event streams as response bodies

A canonical stream becomes the frames of a wire format: each event is encoded to some frames, a
failure to one error frame, and a clean end to the terminator of the format, if it has one.
-/

namespace Switchback

namespace SseBody

open Lib

/-- What a poll of the stream gives. -/
inductive Item
  | ok (event : AiStreamEvent)
  | err (error : AdapterError)

/-- The message of an in-band error. -/
def errorMessage : AiStreamEvent → Option String
  | .error message _ => some message
  | _ => none

/-- The message of an item that ends the stream. -/
def Item.failure : Item → Option String
  | .ok event => errorMessage event
  | .err error => some error.message

inductive FinishState
  | running
  | clean
  | error

/-- How a wire format is written: an encoder with a state, the error frame and the terminator. -/
structure Renderer (σ : Type) where
  encode : σ → AiStreamEvent → σ × List String
  error_frame : String → String
  done : Option String

/-- What the loop keeps, the frames that were sent and whether the body has ended. -/
structure Body (σ : Type) where
  polled : ℕ
  encoder : σ
  pending : List String
  done_sent : Bool
  finish : FinishState
  sent : List String
  ended : Bool

variable {σ : Type} (r : Renderer σ) (items : ℕ → Option Item) (encoder : σ)

/-- A body before its first poll. -/
def Body.start : Body σ :=
  { polled := 0
    encoder := encoder
    pending := []
    done_sent := false
    finish := .running
    sent := []
    ended := false }

/-- An error is polled. -/
def Body.fail (message : String) (b : Body σ) : Body σ :=
  { b with polled := b.polled + 1, pending := [r.error_frame message], finish := .error }

/-- One turn of the loop: a pending frame is sent, else the end is written, else the stream is
polled. -/
def turn (b : Body σ) : Body σ :=
  if b.ended then b
  else
    match b.pending with
    | frame :: pending => { b with pending := pending, sent := b.sent ++ [frame] }
    | [] =>
      match b.finish with
      | .clean =>
        if b.done_sent then { b with ended := true }
        else
          match r.done with
          | some frame => { b with done_sent := true, sent := b.sent ++ [frame] }
          | none => { b with done_sent := true, ended := true }
      | .error => { b with ended := true }
      | .running =>
        match items b.polled with
        | some (.ok event) =>
          match errorMessage event with
          | some message => b.fail r message
          | none =>
            let out := r.encode b.encoder event
            { b with polled := b.polled + 1, encoder := out.1, pending := out.2 }
        | some (.err error) => b.fail r error.message
        | none => { b with polled := b.polled + 1, finish := .clean }

/-- The body after `n` turns. -/
def run : ℕ → Body σ
  | 0 => .start encoder
  | n + 1 => turn r items (run n)

/-- The encoder after some events, and the frames that it makes of them. -/
def encodeAll (events : List AiStreamEvent) : σ × List String :=
  Machine.run r.encode encoder events

/-- The stream begins with these events, none of them an error. -/
def Begins (events : List AiStreamEvent) : Prop :=
  ∀ i event, events[i]? = some event → items i = some (.ok event) ∧ errorMessage event = none

/-! ### Turns -/

variable {r items encoder}

/-- A turn takes nothing back, and ends a body for good. -/
theorem turn_mono (b : Body σ) :
    b.sent <+: (turn r items b).sent ∧ b.polled ≤ (turn r items b).polled ∧
      (turn r items b).polled ≤ b.polled + 1 ∧ (b.ended = true → turn r items b = b) := by
  unfold turn
  by_cases hended : b.ended = true
  · rw [if_pos hended]
    exact ⟨List.prefix_refl _, le_rfl, Nat.le_succ _, fun _ => rfl⟩
  · rw [if_neg hended]
    cases hpending : b.pending with
    | cons frame pending =>
      exact ⟨List.prefix_append _ _, le_rfl, Nat.le_succ _, fun h => absurd h hended⟩
    | nil =>
      dsimp only
      cases hfinish : b.finish with
      | clean =>
        dsimp only
        by_cases hdone : b.done_sent = true
        · rw [if_pos hdone]
          exact ⟨List.prefix_refl _, le_rfl, Nat.le_succ _, fun h => absurd h hended⟩
        · rw [if_neg hdone]
          cases r.done with
          | some frame =>
            exact ⟨List.prefix_append _ _, le_rfl, Nat.le_succ _, fun h => absurd h hended⟩
          | none => exact ⟨List.prefix_refl _, le_rfl, Nat.le_succ _, fun h => absurd h hended⟩
      | error => exact ⟨List.prefix_refl _, le_rfl, Nat.le_succ _, fun h => absurd h hended⟩
      | running =>
        dsimp only
        have hend {b' : Body σ} : b.ended = true → b' = b := fun h => absurd h hended
        cases items b.polled with
        | none => exact ⟨List.prefix_refl _, Nat.le_succ _, le_rfl, hend⟩
        | some item =>
          cases item with
          | err error => exact ⟨List.prefix_refl _, Nat.le_succ _, le_rfl, hend⟩
          | ok event =>
            dsimp only
            cases errorMessage event with
            | some message => exact ⟨List.prefix_refl _, Nat.le_succ _, le_rfl, hend⟩
            | none => exact ⟨List.prefix_refl _, Nat.le_succ _, le_rfl, hend⟩

variable {m n : ℕ} {events : List AiStreamEvent}

theorem run_sent_mono (h : n ≤ m) :
    (run r items encoder n).sent <+: (run r items encoder m).sent := by
  induction m, h using Nat.le_induction with
  | base => exact List.prefix_refl _
  | succ m _ ih => exact ih.trans (turn_mono _).1

theorem run_polled_mono (h : n ≤ m) :
    (run r items encoder n).polled ≤ (run r items encoder m).polled := by
  induction m, h using Nat.le_induction with
  | base => exact le_rfl
  | succ m _ ih => exact ih.trans (turn_mono _).2.1

theorem run_polled_le (n : ℕ) : (run r items encoder n).polled ≤ n := by
  induction n with
  | zero => exact le_rfl
  | succ n ih =>
    have : (turn r items (run r items encoder n)).polled ≤ (run r items encoder n).polled + 1 :=
      (turn_mono _).2.2.1
    show (turn r items (run r items encoder n)).polled ≤ n + 1
    omega

theorem run_of_ended (h : n ≤ m) (hended : (run r items encoder n).ended = true) :
    run r items encoder m = run r items encoder n := by
  induction m, h using Nat.le_induction with
  | base => rfl
  | succ m _ ih =>
    show turn r items (run r items encoder m) = _
    rw [ih]
    exact (turn_mono _).2.2.2 hended

theorem run_flush {b : Body σ} (h : run r items encoder n = b) (hended : b.ended = false) :
    run r items encoder (n + b.pending.length) =
      { b with pending := [], sent := b.sent ++ b.pending } := by
  induction hpending : b.pending generalizing n b with
  | nil =>
    rw [List.length_nil, Nat.add_zero, h, List.append_nil, ← hpending]
  | cons frame pending ih =>
    have hturn : run r items encoder (n + 1) =
        { b with pending := pending, sent := b.sent ++ [frame] } := by
      show turn r items (run r items encoder n) = _
      rw [h, turn, if_neg (by rw [hended]; exact Bool.false_ne_true), hpending]
    have hrest := ih hturn hended rfl
    rw [List.length_cons, show n + (pending.length + 1) = n + 1 + pending.length by omega, hrest,
      List.append_assoc, List.singleton_append]

/-! ### The way of a body -/

/-- The body between two polls, after so many events. -/
def Body.between (r : Renderer σ) (encoder : σ) (events : List AiStreamEvent) : Body σ :=
  { polled := events.length
    encoder := (encodeAll r encoder events).1
    pending := []
    done_sent := false
    finish := .running
    sent := (encodeAll r encoder events).2
    ended := false }

theorem encodeAll_concat (events : List AiStreamEvent) (event : AiStreamEvent) :
    encodeAll r encoder (events ++ [event]) =
      ((r.encode (encodeAll r encoder events).1 event).1,
        (encodeAll r encoder events).2 ++ (r.encode (encodeAll r encoder events).1 event).2) := by
  rw [encodeAll, Machine.run_append]
  simp [Machine.run, encodeAll]

theorem Begins.of_concat {event : AiStreamEvent} (h : Begins items (events ++ [event])) :
    Begins items events ∧ items events.length = some (.ok event) ∧ errorMessage event = none := by
  refine ⟨fun i e he => h i e ?_, h events.length event (by simp)⟩
  rw [List.getElem?_append_left (List.getElem?_eq_some_iff.1 he).1]
  exact he

/-- **The body after some events.**  Every event that the stream begins with is polled, encoded and
sent. -/
theorem run_take (h : Begins items events) :
    ∃ n, run r items encoder n = .between r encoder events := by
  induction events using List.reverseRecOn with
  | nil => exact ⟨0, rfl⟩
  | append_singleton events event ih =>
    obtain ⟨hbegins, hitem, hclean⟩ := h.of_concat
    obtain ⟨n, hn⟩ := ih hbegins
    have hturn : run r items encoder (n + 1) =
        { Body.between r encoder events with
          polled := events.length + 1
          encoder := (r.encode (encodeAll r encoder events).1 event).1
          pending := (r.encode (encodeAll r encoder events).1 event).2 } := by
      show turn r items (run r items encoder n) = _
      rw [hn]
      simp only [turn, Body.between, hitem, hclean, Bool.false_eq_true, if_false]
    refine ⟨_, (run_flush hturn rfl).trans ?_⟩
    simp only [Body.between, encodeAll_concat, List.length_append, List.length_singleton]

/-- The body ends: from some turn on it has sent `text` and encoded `events`, and up to there it
sends no more than `text` and polls at most one item behind the events. -/
structure Ends (r : Renderer σ) (items : ℕ → Option Item) (encoder : σ)
    (events : List AiStreamEvent) (text : List String) : Prop where
  within : ∀ n, (run r items encoder n).sent <+: text ∧
    (run r items encoder n).polled ≤ events.length + 1
  eventually : ∃ n, ∀ m, n ≤ m → (run r items encoder m).ended = true ∧
    (run r items encoder m).sent = text ∧ (run r items encoder m).polled = events.length + 1 ∧
    (run r items encoder m).encoder = (encodeAll r encoder events).1

theorem ends_of_ended {text : List String}
    (hended : (run r items encoder n).ended = true) (hsent : (run r items encoder n).sent = text)
    (hpolled : (run r items encoder n).polled = events.length + 1)
    (hencoder : (run r items encoder n).encoder = (encodeAll r encoder events).1) :
    Ends r items encoder events text := by
  have hafter (m : ℕ) (h : n ≤ m) : run r items encoder m = run r items encoder n :=
    run_of_ended h hended
  refine ⟨fun m => ?_, n, fun m hm => ?_⟩
  · rcases Nat.le_total m n with h | h
    · exact ⟨hsent ▸ run_sent_mono h, hpolled ▸ run_polled_mono h⟩
    · rw [hafter m h, hsent, hpolled]
      exact ⟨List.prefix_refl _, le_rfl⟩
  · rw [hafter m hm]
    exact ⟨hended, hsent, hpolled, hencoder⟩

theorem ends_of_failure (h : Begins items events) {item : Item}
    {message : String} (hitem : items events.length = some item)
    (hfailure : item.failure = some message) :
    Ends r items encoder events
      ((encodeAll r encoder events).2 ++ [r.error_frame message]) := by
  obtain ⟨n, hn⟩ : ∃ n, run r items encoder n = .between r encoder events := run_take h
  have hpoll : run r items encoder (n + 1) = (Body.between r encoder events).fail r message := by
    show turn r items (run r items encoder n) = _
    rw [hn]
    cases item with
    | ok event =>
      have hmessage : errorMessage event = some message := hfailure
      simp only [turn, Body.between, hitem, hmessage, Bool.false_eq_true, if_false]
    | err error =>
      obtain rfl : error.message = message := Option.some.inj hfailure
      simp only [turn, Body.between, hitem, Bool.false_eq_true, if_false]
  have hlast : run r items encoder (n + 3) =
      { (Body.between r encoder events).fail r message with
        pending := []
        sent := (encodeAll r encoder events).2 ++ [r.error_frame message]
        ended := true } := by
    show turn r items (turn r items (run r items encoder (n + 1))) = _
    rw [hpoll]
    rfl
  exact ends_of_ended (by rw [hlast]) (by rw [hlast]) (by rw [hlast]; rfl) (by rw [hlast]; rfl)

theorem ends_of_clean (h : Begins items events) (hitem : items events.length = none) :
    Ends r items encoder events ((encodeAll r encoder events).2 ++ r.done.toList) := by
  obtain ⟨n, hn⟩ : ∃ n, run r items encoder n = .between r encoder events := run_take h
  have hpoll : run r items encoder (n + 1) =
      { Body.between r encoder events with
        polled := events.length + 1
        finish := .clean } := by
    show turn r items (run r items encoder n) = _
    rw [hn]
    simp only [turn, Body.between, hitem, Bool.false_eq_true, if_false]
  have hlast : run r items encoder (n + 3) =
      { Body.between r encoder events with
        polled := events.length + 1
        finish := .clean
        done_sent := true
        sent := (encodeAll r encoder events).2 ++ r.done.toList
        ended := true } := by
    show turn r items (turn r items (run r items encoder (n + 1))) = _
    rw [hpoll]
    cases hdone : r.done with
    | some frame => simp [turn, Body.between, hdone]
    | none => simp [turn, Body.between, hdone]
  exact ends_of_ended (by rw [hlast]) (by rw [hlast]) (by rw [hlast]) (by rw [hlast]; rfl)

/-- **A body ends honestly.**  A failure behind some events gives their frames, one error frame and
the end; a clean end gives their frames, the terminator and the end; and a stream without an end
gives the frames of its events and no end. -/
theorem body_ends_honestly (r : Renderer σ) (items : ℕ → Option Item) (encoder : σ) :
    (∀ events item message, Begins items events → items events.length = some item →
      item.failure = some message →
        Ends r items encoder events
          ((encodeAll r encoder events).2 ++ [r.error_frame message])) ∧
    (∀ events, Begins items events → items events.length = none →
      Ends r items encoder events ((encodeAll r encoder events).2 ++ r.done.toList)) ∧
    ((∀ n, ∃ events, events.length = n ∧ Begins items events) →
      (∀ n, (run r items encoder n).ended = false ∧
        ∃ events, Begins items events ∧
          (run r items encoder n).sent <+: (encodeAll r encoder events).2) ∧
      ∀ events, Begins items events →
        ∃ n, (encodeAll r encoder events).2 <+: (run r items encoder n).sent) := by
  refine ⟨fun events item message h hitem hfailure => ends_of_failure h hitem hfailure,
    fun events h hitem => ends_of_clean h hitem, fun hendless => ⟨fun n => ?_, fun events h => ?_⟩⟩
  · obtain ⟨events, hlength, h⟩ := hendless n
    obtain ⟨m, hm⟩ : ∃ m, run r items encoder m = .between r encoder events := run_take h
    have hle : n ≤ m := by
      have : (run r items encoder m).polled ≤ m := run_polled_le m
      rw [hm] at this
      exact hlength ▸ this
    refine ⟨?_, events, h, ?_⟩
    · by_contra hended
      have hsame := run_of_ended hle (Bool.not_eq_false _ ▸ hended)
      rw [hm] at hsame
      exact hended (hsame ▸ rfl)
    · have hsent : (run r items encoder n).sent <+: (run r items encoder m).sent := run_sent_mono hle
      rwa [hm] at hsent
  · obtain ⟨n, hn⟩ : ∃ n, run r items encoder n = .between r encoder events := run_take h
    exact ⟨n, by rw [hn]; exact List.prefix_refl _⟩

end SseBody

end Switchback
