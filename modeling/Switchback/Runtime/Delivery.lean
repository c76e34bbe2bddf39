import Switchback.Runtime.Execute
import Switchback.Runtime.Meter

/-!
# A metered stream and its client

The runtime peeks the first event of a stream before it commits, and meters what follows.  A client
polls the stream until it has enough or has seen the end, and drops it.
-/

namespace Switchback.Metering

open Lib

/-! ### The stream -/

/-- The peeked event goes back in front of the others. -/
def committedStream (items : List StreamItem) : Except AdapterError (List StreamItem) :=
  (precommitStream items.head?).map fun first => .ok first :: items.tail

/-- The callbacks of a metered stream. -/
inductive Called where
  | onFirst (elapsedMs : ℕ)
  | onFinish (finished : Finished)

def Called.first : Called → Option ℕ
  | .onFirst elapsedMs => some elapsedMs
  | .onFinish _ => none

def Called.finish : Called → Option Finished
  | .onFirst _ => none
  | .onFinish finished => some finished

structure MeteredStream where
  upstream : List StreamItem
  guard : FinishGuard := {}
  /-- `on_first` was not called yet. -/
  onFirst : Bool := true

namespace MeteredStream

/-- The next item, `elapsedMs` after the start. -/
def poll (m : MeteredStream) (elapsedMs : ℕ) : List Called × Option StreamItem × MeteredStream :=
  match m.upstream with
  | item :: upstream =>
      let (finished, guard) := m.guard.poll item
      ((if m.onFirst then [.onFirst elapsedMs] else []) ++ finished.map .onFinish, some item,
        { upstream := upstream, guard := guard, onFirst := false })
  | [] =>
      let (finished, guard) := m.guard.fire .clean
      (finished.map .onFinish, none, { m with guard := guard })

/-- The guard of a dropped stream fires if it is still armed. -/
def drop (m : MeteredStream) : List Called := (m.guard.fire .aborted).1.map .onFinish

end MeteredStream

/-- What came of a stream: the callbacks, the items that the client got, and whether it saw the
end. -/
structure Session where
  calls : List Called
  delivered : List StreamItem := []
  ended : Bool := false

/-- A client polls at the given times, up to the end of the stream, and then drops it. -/
def MeteredStream.session (m : MeteredStream) : List ℕ → Session
  | [] => { calls := m.drop }
  | elapsedMs :: polls =>
      match m.poll elapsedMs with
      | (calls, some item, next) =>
          let rest := next.session polls
          { calls := calls ++ rest.calls, delivered := item :: rest.delivered, ended := rest.ended }
      | (calls, none, next) => { calls := calls ++ next.drop, ended := true }

/-! ### What should be handed on -/

/-- The class of an error, of the stream or in it. -/
def errorOf : StreamItem → Option ErrorClass
  | .error err => some err.errorClass
  | .ok (.error _ errorClass) => some errorClass
  | .ok _ => none

def usageOf : StreamItem → Option Usage
  | .ok (.usageDelta usage) => some usage
  | _ => none

def finishOf : StreamItem → Option FinishReason
  | .ok (.messageEnd finishReason) => some finishReason
  | _ => none

/-- The items up to the first error, that one included. -/
def upToError : List StreamItem → List StreamItem
  | [] => []
  | item :: items => if (errorOf item).isSome then [item] else item :: upToError items

def finishOutcome (delivered : List StreamItem) (ended : Bool) : StreamFinish :=
  match (delivered.filterMap errorOf).head? with
  | some errorClass => .upstreamError errorClass
  | none => if ended then .clean else .aborted

/-- The last usage and finish reason up to the first error, and how the stream ended. -/
def verdict (delivered : List StreamItem) (ended : Bool) : Finished where
  usage := ((upToError delivered).filterMap usageOf).getLast?.getD {}
  finishReason := ((upToError delivered).filterMap finishOf).getLast?
  outcome := finishOutcome delivered ended

/-! ### The guard -/

section Guard

variable {g : FinishGuard}

theorem FinishGuard.fire_armed (h : g.armed = true) (outcome : StreamFinish) :
    g.fire outcome =
      ([{ usage := g.usage, finishReason := g.finishReason, outcome := outcome }],
        { armed := false }) := by
  unfold FinishGuard.fire
  rw [if_pos h]

theorem FinishGuard.fire_disarmed (h : g.armed = false) (outcome : StreamFinish) :
    g.fire outcome = ([], g) := by
  unfold FinishGuard.fire
  rw [h, if_neg Bool.false_ne_true]

theorem FinishGuard.armed_fire (g : FinishGuard) (outcome : StreamFinish) :
    (g.fire outcome).2.armed = false := by
  cases h : g.armed with
  | false => rw [FinishGuard.fire_disarmed h, h]
  | true => rw [FinishGuard.fire_armed h]

theorem FinishGuard.note_eq (g : FinishGuard) (item : StreamItem) :
    g.note item = { g with
      usage := (usageOf item).getD g.usage
      finishReason := (finishOf item).or g.finishReason } := by
  rcases item with err | event
  · rfl
  · cases event <;> rfl

theorem FinishGuard.poll_eq (g : FinishGuard) (item : StreamItem) :
    g.poll item =
      match errorOf item with
      | some errorClass => (g.note item).fire (.upstreamError errorClass)
      | none => ([], g.note item) := by
  rcases item with err | event
  · rfl
  · cases event <;> rfl

theorem meterStream_disarmed (h : g.armed = false) (dropped : Bool) (items : List StreamItem) :
    meterStream g dropped items = [] := by
  induction items generalizing g with
  | nil => rw [meterStream, FinishGuard.fire_disarmed h]
  | cons item items ih =>
    have hnote : (g.note item).armed = false := by
      rw [FinishGuard.note_eq]
      exact h
    rw [meterStream, FinishGuard.poll_eq]
    cases errorOf item with
    | none => exact ih hnote
    | some errorClass =>
      dsimp only
      rw [FinishGuard.fire_disarmed hnote]
      exact ih hnote

/-- **An armed guard fires once**, with the last usage and finish reason up to the first error. -/
theorem meterStream_armed (h : g.armed = true) (dropped : Bool) (items : List StreamItem) :
    meterStream g dropped items =
      [{ usage := ((upToError items).filterMap usageOf).getLast?.getD g.usage
         finishReason := ((upToError items).filterMap finishOf).getLast?.or g.finishReason
         outcome := finishOutcome items (!dropped) }] := by
  induction items generalizing g with
  | nil =>
    rw [meterStream, FinishGuard.fire_armed h]
    cases dropped <;> rfl
  | cons item items ih =>
    have hnote : (g.note item).armed = true := by
      rw [FinishGuard.note_eq]
      exact h
    rw [meterStream, FinishGuard.poll_eq]
    cases herror : errorOf item with
    | some errorClass =>
      -- the guard fires at this item and is quiet from then on
      have hup : upToError (item :: items) = [item] := by
        rw [upToError, herror]
        rfl
      have hout : finishOutcome (item :: items) (!dropped) = .upstreamError errorClass := by
        unfold finishOutcome
        rw [List.filterMap_cons_some herror]
        rfl
      dsimp only
      rw [FinishGuard.fire_armed hnote, meterStream_disarmed rfl, List.append_nil, hup, hout,
        FinishGuard.note_eq]
      cases husage : usageOf item <;> cases hfinish : finishOf item <;>
        simp [husage, hfinish]
    | none =>
      have hup : upToError (item :: items) = item :: upToError items := by
        rw [upToError, herror]
        rfl
      have hout : finishOutcome (item :: items) (!dropped) = finishOutcome items (!dropped) := by
        unfold finishOutcome
        rw [List.filterMap_cons_none herror]
      dsimp only
      rw [List.nil_append, ih hnote, hup, hout, FinishGuard.note_eq]
      have husage : (((item :: upToError items).filterMap usageOf).getLast?.getD g.usage) =
          ((upToError items).filterMap usageOf).getLast?.getD ((usageOf item).getD g.usage) := by
        cases hitem : usageOf item with
        | none => rw [List.filterMap_cons_none hitem, Option.getD_none]
        | some usage =>
          rw [List.filterMap_cons_some hitem, List.getLast?_cons, Option.getD_some,
            Option.getD_some]
      have hfinish : ((item :: upToError items).filterMap finishOf).getLast?.or g.finishReason =
          ((upToError items).filterMap finishOf).getLast?.or
            ((finishOf item).or g.finishReason) := by
        cases hitem : finishOf item with
        | none => rw [List.filterMap_cons_none hitem, Option.none_or]
        | some reason =>
          rw [List.filterMap_cons_some hitem, List.getLast?_cons, Option.some_or, Option.some_or]
          cases ((upToError items).filterMap finishOf).getLast? <;> rfl
      rw [husage, hfinish]

end Guard

/-! ### The sessions -/

section Sessions

variable {item : StreamItem} {upstream : List StreamItem} {guard : FinishGuard} {onFirst : Bool}
  {elapsedMs : ℕ} {polls : List ℕ}

/-- A poll that finds an item. -/
theorem session_item :
    (MeteredStream.mk (item :: upstream) guard onFirst).session (elapsedMs :: polls) =
      let rest := (MeteredStream.mk upstream (guard.poll item).2 false).session polls
      { calls := ((if onFirst then [.onFirst elapsedMs] else []) ++
          (guard.poll item).1.map .onFinish) ++ rest.calls
        delivered := item :: rest.delivered
        ended := rest.ended } := rfl

/-- A poll that finds the end; the drop that follows finds the guard disarmed. -/
theorem session_end :
    (MeteredStream.mk [] guard onFirst).session (elapsedMs :: polls) =
      { calls := (guard.fire .clean).1.map .onFinish, ended := true } := by
  have hdrop : ((guard.fire .clean).2.fire .aborted).1 = [] := by
    rw [FinishGuard.fire_disarmed (guard.armed_fire _)]
  show Session.mk (_ ++ ((guard.fire .clean).2.fire .aborted).1.map Called.onFinish) [] true = _
  rw [hdrop, List.map_nil, List.append_nil]
  rfl

theorem filterMap_finish_onFinish (l : List Finished) :
    (l.map Called.onFinish).filterMap Called.finish = l := by
  rw [List.filterMap_map]
  exact List.filterMap_some

theorem filterMap_first_onFinish (l : List Finished) :
    (l.map Called.onFinish).filterMap Called.first = [] := by
  rw [List.filterMap_map]
  exact List.filterMap_eq_nil_iff.2 fun _ _ => rfl

variable (m : MeteredStream) (polls : List ℕ)

theorem session_delivered : (m.session polls).delivered = m.upstream.take polls.length := by
  induction polls generalizing m with
  | nil => rfl
  | cons elapsedMs polls ih =>
    obtain ⟨upstream, guard, onFirst⟩ := m
    cases upstream with
    | nil => rfl
    | cons item upstream =>
      rw [session_item, List.length_cons, List.take_succ_cons]
      exact congrArg (item :: ·) (ih _)

theorem session_ended :
    (m.session polls).ended = true ↔ m.upstream.length < polls.length := by
  induction polls generalizing m with
  | nil => simp [MeteredStream.session]
  | cons elapsedMs polls ih =>
    obtain ⟨upstream, guard, onFirst⟩ := m
    cases upstream with
    | nil => simp [session_end]
    | cons item upstream =>
      rw [session_item, List.length_cons, List.length_cons, Nat.succ_lt_succ_iff]
      exact ih _

theorem session_finish :
    (m.session polls).calls.filterMap Called.finish =
      meterStream m.guard (!(m.session polls).ended) (m.session polls).delivered := by
  induction polls generalizing m with
  | nil => exact filterMap_finish_onFinish _
  | cons elapsedMs polls ih =>
    obtain ⟨upstream, guard, onFirst⟩ := m
    cases upstream with
    | nil =>
      rw [session_end]
      exact filterMap_finish_onFinish _
    | cons item upstream =>
      have hfirst : (if onFirst then [Called.onFirst elapsedMs] else []).filterMap Called.finish =
          [] := by cases onFirst <;> rfl
      rw [session_item]
      dsimp only
      rw [List.filterMap_append, List.filterMap_append, filterMap_finish_onFinish, hfirst, ih,
        meterStream, List.nil_append]

theorem session_first :
    (m.session polls).calls.filterMap Called.first =
      if m.onFirst = true ∧ m.upstream ≠ [] then polls.take 1 else [] := by
  induction polls generalizing m with
  | nil =>
    rw [List.take_nil, ite_self]
    exact filterMap_first_onFinish _
  | cons elapsedMs polls ih =>
    obtain ⟨upstream, guard, onFirst⟩ := m
    cases upstream with
    | nil =>
      rw [session_end, if_neg fun h => h.2 rfl]
      exact filterMap_first_onFinish _
    | cons item upstream =>
      have hrest := ih ⟨upstream, (guard.poll item).2, false⟩
      rw [if_neg fun h => absurd h.1 Bool.false_ne_true] at hrest
      rw [session_item]
      dsimp only
      rw [List.filterMap_append, List.filterMap_append, filterMap_first_onFinish, hrest]
      cases onFirst <;> simp [Called.first]

theorem committedStream_cases (items : List StreamItem) :
    (∃ first rest, items = .ok first :: rest ∧ committedStream items = .ok items) ∨
      ∃ err, committedStream items = .error err ∧
        (items = [] ∨ items.head?.bind errorOf = some err.errorClass) := by
  cases items with
  | nil => exact Or.inr ⟨_, rfl, Or.inl rfl⟩
  | cons item items =>
    rcases item with err | event
    · exact Or.inr ⟨err, rfl, Or.inr rfl⟩
    · cases event with
      | error message errorClass => exact Or.inr ⟨_, rfl, Or.inr rfl⟩
      | _ => exact Or.inl ⟨_, _, rfl, rfl⟩

/-- **Every session of a committed stream passes the items on in order and is finalized once.**  A
stream is not committed only if it is empty or begins with an error. -/
theorem session_metered (items : List StreamItem) (polls : List ℕ) :
    match committedStream items with
    | .error err => items = [] ∨ items.head?.bind errorOf = some err.errorClass
    | .ok stream =>
        let s := (MeteredStream.mk stream {} true).session polls
        s.delivered = items.take polls.length ∧
          (s.ended = true ↔ items.length < polls.length) ∧
          s.calls.filterMap Called.first = polls.take 1 ∧
          s.calls.filterMap Called.finish = [verdict s.delivered s.ended] := by
  rcases committedStream_cases items with ⟨first, rest, hitems, hok⟩ | ⟨err, herr, hwhy⟩
  · rw [hok]
    refine ⟨session_delivered _ _, session_ended _ _, ?_, ?_⟩
    · rw [session_first, if_pos ⟨rfl, hitems ▸ List.cons_ne_nil _ _⟩]
    · rw [session_finish, meterStream_armed rfl, Bool.not_not, Option.or_none]
      rfl
  · rw [herr]
    exact hwhy

end Sessions

end Switchback.Metering
