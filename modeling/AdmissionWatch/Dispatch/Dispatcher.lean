import AdmissionWatch.Dispatch.Handler
import AdmissionWatch.Telemetry.Update

/-!
# Dispatchers

A dispatcher gives each event to the handler of its kind and publishes what came of it. Events
without a kind, and of a kind that has no handler, are left alone.
-/

namespace AdmissionWatch.Dispatch

open Time

/-- At most one handler a kind. -/
structure Dispatcher (α : Type) where
  handlers : List (Handler α) := []

/-- What became of an event. -/
inductive Dispatched where
  | handled (category : Category) (outcome : Handled)
  /-- There was no handler for it. -/
  | unrouted
  deriving DecidableEq, Repr, Inhabited

namespace Dispatcher

variable {α : Type} [Quantity α]

/-- Adds a handler in place of the one of its kind. -/
def register (d : Dispatcher α) (h : Handler α) : Dispatcher α :=
  { handlers := (d.handlers.filter fun o => o.category != h.category) ++ [h] }

/-- The handler of a kind. -/
def handler? (d : Dispatcher α) (c : Category) : Option (Handler α) :=
  d.handlers.find? fun h => h.category == c

/-- A handler for each kind, with the sink that is made for the kind. -/
def withSinks (perMinute : Nat) (now : Moment) (sink : Category → Except Failure String) :
    Except Failure (Dispatcher α) :=
  Category.all.foldlM (fun d c => do return d.register (.create c (← sink c) perMinute now)) {}

/-- A handler for each kind with a sink of that name. -/
def withSink (sink : String) (perMinute : Nat) (now : Moment) : Dispatcher α :=
  Category.all.foldl (fun d c => d.register (.create c sink perMinute now)) {}

/-- The name of the sink that writes to the console. -/
def consoleSink : String := "console"

/-- The name of the sink that reports to the service. -/
def reportingSink : String := "insights"

/-- The update that a delivery is counted by. -/
def deliveryUpdate (c : Category) (outcome : String) : Telemetry.Update :=
  .counted Telemetry.deliveries [("category", c.stem), ("outcome", outcome)] 1

/-- What dispatching an event came to. -/
structure Run (α : Type) where
  result : Except Failure Dispatched
  /-- The payloads that were handed to sinks. -/
  sent : List Violation
  /-- When it was over. -/
  moment : Moment
  dispatcher : Dispatcher α
  /-- What was published at the end. -/
  updates : List Telemetry.Update

/-- Gives an event to the handler of its kind; `reply` is what the sink answers to a payload. -/
def dispatch (d : Dispatcher α) (reply : Violation → Except Failure Unit) (e : Event) (now : Moment) : Run α :=
  match e.category? with
  | none => ⟨.ok .unrouted, [], now, d, []⟩
  | some c =>
    match d.handler? c with
    | none => ⟨.ok .unrouted, [], now, d, []⟩
    | some h =>
      let r := h.handle reply e now
      let d := d.register r.handler
      match r.result with
      | .ok outcome => ⟨.ok (.handled c outcome), r.sent, r.moment, d, [deliveryUpdate c outcome.label]⟩
      | .error f => ⟨.error f, r.sent, r.moment, d, [deliveryUpdate c "error"]⟩

end Dispatcher

end AdmissionWatch.Dispatch
