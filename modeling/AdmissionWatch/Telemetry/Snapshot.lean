import AdmissionWatch.Telemetry.Metrics

/-!
# Snapshots of the collector

The counters at a moment, and the rates and shares that are computed from them.
-/

namespace AdmissionWatch.Telemetry

open Time

/-- The counters at a moment. -/
structure Snapshot where
  counters : Counters
  capacity : Nat
  /-- How long counting has gone on. -/
  uptime : Span
  deriving Repr, Inhabited

/-- The counters now. -/
def Metrics.snapshot (m : Metrics) (now : Moment) : Snapshot :=
  { counters := m.counters, capacity := m.capacity, uptime := m.started.elapsed now }

namespace Snapshot

/-- A count as a double. -/
def double (n : Nat) : Float := (UInt64.ofNat n).toFloat

/-- A count per second; none in no time. -/
def perSecond (count : Nat) (length : Span) : Float :=
  if length.toFloat ≤ 0.0 then 0.0 else double count / length.toFloat

/-- Events that came out of the channel or were dropped. -/
def total (s : Snapshot) : Nat := s.counters.processed + s.counters.dropped

/-- The time spent on dispatching. -/
def processingTime (s : Snapshot) : Span := .ofMicros s.counters.processingMicros.toNat

/-- How full the channel is, in percent. -/
def utilization (s : Snapshot) : Float :=
  if s.capacity = 0 then 0.0 else double s.counters.inChannel / double s.capacity * 100.0

/-- Events per second. -/
def eventsPerSecond (s : Snapshot) : Float := perSecond s.total s.uptime

/-- Events per second of the time spent on dispatching. -/
def processingRate (s : Snapshot) : Float := perSecond s.counters.processed s.processingTime

/-- Dropped events per second. -/
def droppedRate (s : Snapshot) : Float := perSecond s.counters.dropped s.uptime

/-- The share of dropped events, in percent. -/
def dropPercentage (s : Snapshot) : Float :=
  if s.total = 0 then 0.0 else double s.counters.dropped / double s.total * 100.0

/-- The time that dispatching one event took on average, in whole microseconds. -/
def averageTime (s : Snapshot) : Span :=
  if s.counters.processed = 0 then .zero
  else .ofMicros (s.counters.processingMicros.toNat / s.counters.processed)

/-- A double with so many places. -/
def fixed (places : Nat) (x : Float) : String :=
  Decimal.fixedText places (.ofBits x.toBits)

/-- The snapshot in diagnostics. -/
def diagnostic (s : Snapshot) : String :=
  let c := s.counters
  let fields : List (String × String) :=
    [("events_processed", toString c.processed), ("events_dropped", toString c.dropped),
     ("events_in_channel", toString c.inChannel), ("events_delivered", toString c.delivered),
     ("events_filtered", toString c.filtered), ("handler_errors", toString c.errors),
     ("processing_time_us", toString c.processingMicros.toNat), ("channel_capacity", toString s.capacity),
     ("uptime", s.uptime.diagnostic)]
  "MetricsSnapshot \x7b " ++ ", ".intercalate (fields.map fun (name, value) => name ++ ": " ++ value) ++ " \x7d"

/-- The fields of the line that sums the collector up: those with a number, and those with a
text. -/
def summary (s : Snapshot) : List (String × Nat) × List (String × String) :=
  let c := s.counters
  ([("events_processed", c.processed), ("events_dropped", c.dropped), ("events_in_channel", c.inChannel),
    ("channel_capacity", s.capacity), ("events_delivered", c.delivered), ("events_filtered", c.filtered),
    ("handler_errors", c.errors)],
   [("channel_utilization", fixed 2 s.utilization), ("events_per_second", fixed 3 s.eventsPerSecond),
    ("processing_rate", fixed 3 s.processingRate), ("dropped_events_rate", fixed 3 s.droppedRate),
    ("uptime", s.uptime.diagnostic), ("message", "Watcher metrics")])

end Snapshot

/-- The collector in diagnostics. -/
def Metrics.diagnostic (m : Metrics) (now : Moment) : String :=
  "WatcherMetrics(" ++ (m.snapshot now).diagnostic ++ ")"

end AdmissionWatch.Telemetry
