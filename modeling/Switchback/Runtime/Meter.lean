import Switchback.Runtime.Collect

/-!
# Metering a stream

`meter_stream` passes every item on and notes the last usage and the last finish reason in a
guard, which hands them on once: at the end of the stream, at an error, or when the client drops
the stream.
-/

namespace Switchback.Metering

open Lib

inductive StreamFinish where
  | clean
  | upstreamError (errorClass : ErrorClass)
  | aborted
  deriving DecidableEq

/-- What `on_finish` is called with. -/
structure Finished where
  usage : Usage
  finishReason : Option FinishReason
  outcome : StreamFinish
  deriving DecidableEq

structure FinishGuard where
  usage : Usage := {}
  finishReason : Option FinishReason := none
  /-- `on_finish` was not called yet. -/
  armed : Bool := true

namespace FinishGuard

/-- Call `on_finish`, once; the guard is left with the defaults. -/
def fire (g : FinishGuard) (outcome : StreamFinish) : List Finished × FinishGuard :=
  if g.armed then
    ([{ usage := g.usage, finishReason := g.finishReason, outcome := outcome }],
      { armed := false })
  else ([], g)

/-- What an item leaves in the guard. -/
def note (g : FinishGuard) : Except AdapterError AiStreamEvent → FinishGuard
  | .ok (.usageDelta usage) => { g with usage := usage }
  | .ok (.messageEnd finishReason) => { g with finishReason := some finishReason }
  | _ => g

/-- An error fires the guard, in the stream or of the stream. -/
def poll (g : FinishGuard) (item : Except AdapterError AiStreamEvent) :
    List Finished × FinishGuard :=
  match item with
  | .error err => (g.note item).fire (.upstreamError err.errorClass)
  | .ok (.error _ errorClass) => (g.note item).fire (.upstreamError errorClass)
  | .ok _ => ([], g.note item)

end FinishGuard

/-- The calls of `on_finish` over the polled items, after which the stream has ended or is
dropped. -/
def meterStream (g : FinishGuard) (dropped : Bool) :
    List (Except AdapterError AiStreamEvent) → List Finished
  | [] => (g.fire (if dropped then .aborted else .clean)).1
  | item :: items => (g.poll item).1 ++ meterStream (g.poll item).2 dropped items

/-- The usage in force after an event. -/
def noteUsage (usage : Usage) : AiStreamEvent → Usage
  | .usageDelta latest => latest
  | _ => usage

/-- The finish reason in force after an event. -/
def noteFinish (finishReason : Option FinishReason) : AiStreamEvent → Option FinishReason
  | .messageEnd reason => some reason
  | _ => finishReason

theorem poll_ok {g : FinishGuard} {event : AiStreamEvent} (h : event.isError = false) :
    g.poll (.ok event) =
      ([], { g with
        usage := noteUsage g.usage event
        finishReason := noteFinish g.finishReason event }) := by
  cases event with
  | error message errorClass => simp [AiStreamEvent.isError] at h
  | _ => rfl

/-- **A drained stream without errors is metered once**, with the last usage and the last finish
reason. -/
theorem meterStream_clean {g : FinishGuard} (hg : g.armed = true) {events : List AiStreamEvent}
    (h : ∀ event ∈ events, event.isError = false) :
    meterStream g false (events.map .ok) =
      [{ usage := events.foldl noteUsage g.usage
         finishReason := events.foldl noteFinish g.finishReason
         outcome := .clean }] := by
  induction events generalizing g with
  | nil => simp [meterStream, FinishGuard.fire, hg]
  | cons event events ih =>
    obtain ⟨hevent, hevents⟩ := List.forall_mem_cons.mp h
    rw [List.map_cons, meterStream, poll_ok hevent, List.nil_append]
    exact ih hg hevents

end Switchback.Metering
