import AdmissionWatch.Dedup.Window
import AdmissionWatch.Event
import AdmissionWatch.Telemetry.Metrics

/-!
# The intake

Where events from all sources come together: a window of identifiers lets each event in once, and a
channel of fixed capacity holds the events that wait to be dispatched. Submitting never waits; an
event for which there is no room is dropped and stays known. A submission consists of the actions
`know`, `announce`, `offer` and `retract`, each of which is one step.
-/

namespace AdmissionWatch

open Time Telemetry

/-- What became of a submitted event. -/
inductive Submission where
  | queued
  /-- Its identifier is known already. -/
  | duplicate
  /-- The channel had no room. -/
  | dropped
  /-- The channel is closed. -/
  | closed
  deriving DecidableEq, Repr, Inhabited

namespace Submission

/-- The outcome as it is reported. -/
def label : Submission → String
  | queued => "Queued"
  | duplicate => "Duplicate"
  | dropped => "Dropped"
  | closed => "Closed"

/-- The outcome that is reported as `s`. -/
def ofLabel? (s : String) : Option Submission :=
  [queued, duplicate, dropped, closed].find? fun o => o.label == s

end Submission

/-- The window, the channel and the collector that counts what happens to them. -/
structure Intake where
  window : Dedup.Window
  metrics : Metrics
  /-- The events that wait, the first to leave first. -/
  queue : List Event := []
  /-- How many events can wait. -/
  capacity : Nat
  /-- Whether the channel takes no more events. -/
  isClosed : Bool := false

namespace Intake

/-- An intake without events. There is room for one at least. -/
def create (capacity : Nat) (window : Dedup.Window) (now : Moment) : Intake :=
  { window, metrics := .create capacity now, capacity := max capacity 1 }

/-- Records a change in the collector. -/
def record (i : Intake) (change : Metrics.Change) : Intake :=
  { i with metrics := i.metrics.record change }

/-- Takes an identifier into the window. Also answered: whether it is new. -/
def know (i : Intake) (id : String) (now : Moment) : Bool × Intake :=
  let (isNew, window) := i.window.enter id now
  (isNew, { i with window })

/-- Counts an event into the channel. -/
def announce (i : Intake) : Intake := i.record .entered

/-- Puts an event into the channel, if it is open and has room. -/
def offer (i : Intake) (e : Event) : Submission × Intake :=
  if i.isClosed then (.closed, i)
  else if i.queue.length < i.capacity then (.queued, { i with queue := i.queue ++ [e] })
  else (.dropped, i)

/-- Counts an event out of the channel that was announced but not taken. -/
def retract (i : Intake) : Intake := i.record .left

/-- Submits an event under an identifier. -/
def submit (i : Intake) (id : String) (e : Event) (now : Moment) : Submission × Intake :=
  let (isNew, i) := i.know id now
  if !isNew then (.duplicate, i)
  else
    match i.announce.offer e with
    | (.dropped, i) => (.dropped, i.retract.record .dropped)
    | (.closed, i) => (.closed, i.retract)
    | other => other

/-- Takes the first event out of the channel. -/
def take? (i : Intake) : Option (Event × Intake) :=
  match i.queue with
  | [] => none
  | e :: rest => some (e, { i with queue := rest })

/-- Closes the channel; the events in it can still be taken. -/
def close (i : Intake) : Intake := { i with isClosed := true }

/-- Closes the channel and counts the events in it as dropped. -/
def discard (i : Intake) : Intake :=
  let closed := i.close
  i.queue.foldl (fun i _ => (i.record .left).record .dropped) { closed with queue := [] }

end Intake

end AdmissionWatch
