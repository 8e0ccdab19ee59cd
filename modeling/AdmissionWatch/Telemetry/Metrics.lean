import AdmissionWatch.Telemetry.Update
import AdmissionWatch.Time.Moment

/-!
# The collector

Counters of the watcher. What the outside sees of a change is published with it: counts that grow, times
that are measured, and the depth of the channel when an event enters or leaves it. When counting begins
anew nothing is published.
-/

namespace AdmissionWatch.Telemetry

open Time

/-- The counters. Events are counted one by one, so their counts stay far below the end of 64 bits, and
the depth below where doubles leave out whole numbers: plain numbers count the same. -/
structure Counters where
  processed : Nat := 0
  dropped : Nat := 0
  inChannel : Nat := 0
  delivered : Nat := 0
  filtered : Nat := 0
  errors : Nat := 0
  /-- The time spent on dispatching, in microseconds; it is counted in 64 bits. -/
  processingMicros : UInt64 := 0
  deriving DecidableEq, Repr, Inhabited

/-- The counters with what has been published of them. -/
structure Metrics where
  counters : Counters := {}
  /-- The number of events the channel has room for. -/
  capacity : Nat := 0
  /-- When counting began. -/
  started : Moment := 0
  /-- What has been published, latest first. -/
  published : List Update := []
  deriving Repr, Inhabited

/-- What can happen to the collector. -/
inductive Metrics.Change where
  /-- An event was drained and dispatched. -/
  | processed
  /-- An event was dropped. -/
  | dropped
  /-- An event entered the channel. -/
  | entered
  /-- An event left the channel. -/
  | left
  /-- An event was delivered. -/
  | delivered
  /-- An event was filtered. -/
  | filtered
  /-- Handling an event failed. -/
  | failed
  /-- Dispatching an event took that long. -/
  | took (length : Span)
  /-- Counting begins anew. -/
  | reset (now : Moment)
  deriving DecidableEq, Repr

namespace Metrics

/-- A collector for a channel of that capacity. -/
def create (capacity : Nat) (now : Moment) : Metrics :=
  { capacity, started := now }

/-- Publishes an update. -/
def publish (m : Metrics) (u : Update) : Metrics :=
  { m with published := u :: m.published }

/-- Sets the counters. -/
def withCounters (m : Metrics) (f : Counters → Counters) : Metrics :=
  { m with counters := f m.counters }

/-- Sets the depth of the channel and publishes it. -/
def setDepth (m : Metrics) (depth : Nat) : Metrics :=
  (m.withCounters fun c => { c with inChannel := depth }).publish (.gauged channelDepth depth)

/-- What a change does to the collector. -/
def record (m : Metrics) : Change → Metrics
  | .processed =>
    (m.withCounters fun c => { c with processed := c.processed + 1 }).publish (.counted eventsProcessed [] 1)
  | .dropped =>
    (m.withCounters fun c => { c with dropped := c.dropped + 1 }).publish (.counted eventsDropped [] 1)
  | .entered => m.setDepth (m.counters.inChannel + 1)
  | .left => m.setDepth (m.counters.inChannel - 1)
  | .delivered => m.withCounters fun c => { c with delivered := c.delivered + 1 }
  | .filtered => m.withCounters fun c => { c with filtered := c.filtered + 1 }
  | .failed => m.withCounters fun c => { c with errors := c.errors + 1 }
  | .took length =>
    (m.withCounters fun c =>
      { c with processingMicros := c.processingMicros + UInt64.ofNat length.micros }).publish
      (.timed processingDuration length)
  | .reset now => { m with counters := {}, started := now }

end Metrics

end AdmissionWatch.Telemetry
