import AdmissionWatch.Time.Span

/-!
# Published updates

What the collector of the watcher and the dispatcher tell the outside, in the order in which they
tell it.
-/

namespace AdmissionWatch.Telemetry

/-- What a name stands for. -/
inductive Instrument where
  | counter
  | gauge
  | histogram
  deriving DecidableEq, Repr, Inhabited

/-- One message to the outside. -/
inductive Update where
  /-- A counter grew. -/
  | counted (name : String) (labels : List (String × String)) (amount : Nat)
  /-- A gauge has a new value. -/
  | gauged (name : String) (value : Nat)
  /-- A time was measured. -/
  | timed (name : String) (length : Time.Span)
  /-- A name is explained. -/
  | described (instrument : Instrument) (name text : String)
  deriving DecidableEq, Repr, Inhabited

namespace Update

/-- The name an update is about. -/
def name : Update → String
  | counted name _ _ | gauged name _ | timed name _ | described _ name _ => name

end Update

/-- Events drained from the channel. -/
def eventsProcessed : String := "policywatch_events_processed_total"

/-- Events dropped. -/
def eventsDropped : String := "policywatch_events_dropped_total"

/-- Deliveries by kind and outcome. -/
def deliveries : String := "policywatch_deliveries_total"

/-- The time that dispatching an event takes. -/
def processingDuration : String := "policywatch_processing_duration_seconds"

/-- Events in the channel. -/
def channelDepth : String := "policywatch_channel_depth"

/-- The explanations of all names. -/
def descriptions : List Update :=
  [.described .counter eventsProcessed "Events drained from the channel and dispatched",
   .described .counter eventsDropped "Events dropped because the channel was full",
   .described .counter deliveries "Handler results by category and outcome",
   .described .histogram processingDuration "Time spent dispatching one event",
   .described .gauge channelDepth "Events currently buffered in the channel"]

end AdmissionWatch.Telemetry
