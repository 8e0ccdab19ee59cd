import AdmissionWatch.Health.State
import AdmissionWatch.LogGroup.Poller
import AdmissionWatch.Source.Setup
import AdmissionWatch.Watcher.Pipeline

/-!
# The watcher

The pipeline, the dispatcher that it ends in, the sources that feed it and what is said of its
health. A watcher runs once: it is started, and it is stopped for good, possibly without having been
started. Starting and stopping take several steps, between which something else may happen.
-/

namespace AdmissionWatch

open Time Dispatch Source

namespace Watcher

/-- Where in its life a watcher is. -/
inductive Lifecycle where
  | created
  | running
  | stopped
  deriving DecidableEq, Repr, Inhabited

/-- The word for it in diagnostics. -/
def Lifecycle.diagnostic : Lifecycle → String
  | created => "Created"
  | running => "Running"
  | stopped => "Stopped"

/-- What a source that has been started does next, and when. -/
inductive Activity where
  /-- It reads the file. -/
  | scan (due : Moment)
  /-- It lists the policy events. -/
  | list (due : Moment) (versions : PolicyEvents.Versions)
  /-- It goes on polling. -/
  | poll (poller : LogGroup.Poller)

/-- When a source does something next. -/
def Activity.due : Activity → Moment
  | scan due | list due _ => due
  | poll poller => poller.due

/-- A source with what it does, if it does anything. -/
structure Feed where
  setup : Setup
  activity : Option Activity := none

/-- What a watcher is made for. -/
structure Plan where
  /-- How many events can wait. -/
  bufferSize : Nat
  /-- How often the counters are reported; never if it is no time at all. -/
  metricsInterval : Span := .zero
  sources : List Setup := []

/-- Why no watcher can be made. -/
inductive Abort where
  /-- No channel has room for that many events. -/
  | channelTooLarge
  deriving DecidableEq, Repr

/-- The most events that a channel can have room for. -/
def maxCapacity : Nat := 0xFFFFFFFFFFFFFFFF / 8

/-- What the watcher says when it cannot be made, which is nothing: making it ends in the channel, and
whatever else is shown then does not come from the watcher. -/
def Abort.message : Abort → String
  | channelTooLarge => ""

end Watcher

/-- A watcher at some time. -/
structure Watcher where
  pipeline : Watcher.Pipeline
  dispatcher : Dispatcher Float
  health : Health.State
  feeds : List Watcher.Feed
  lifecycle : Watcher.Lifecycle := .created
  metricsInterval : Span
  /-- When the counters are reported next. -/
  reportDue : Option Moment := none

namespace Watcher

/-- A watcher that has not been started. -/
def create (p : Plan) (d : Dispatcher Float) (now : Moment) : Except Abort Watcher :=
  if maxCapacity < p.bufferSize then .error .channelTooLarge
  else .ok
    { pipeline := .create p.bufferSize now
      dispatcher := d
      health := Health.State.register { started := now, version := watcherVersion } .pipeline
      feeds := p.sources.map fun setup => { setup }
      metricsInterval := p.metricsInterval }

/-- The collector. -/
def metrics (w : Watcher) : Telemetry.Metrics := w.pipeline.intake.metrics

/-- The names of the sources. -/
def sourceNames (w : Watcher) : List String := w.feeds.map (·.setup.name)

/-- Submits an event under an identifier. -/
def submit (w : Watcher) (id : String) (e : Event) (now : Clock) : Submission × Watcher :=
  let (outcome, pipeline) := w.pipeline.submit id e now
  (outcome, { w with pipeline })

/-- What is reported when a watcher is started that has been started or stopped before. -/
def startedTwice : Failure := .internal "watcher can only be started once"

/-- The first step of starting: the consumer is started. The sources come next. -/
def beginStart (w : Watcher) : Except Failure Watcher :=
  match w.lifecycle with
  | .created => .ok { w with lifecycle := .running, pipeline := w.pipeline.start }
  | _ => .error startedTwice

/-- The last step of starting, after the sources have been started. -/
def endStart (w : Watcher) (timer : Moment) : Watcher :=
  { w with
    health := w.health.setStatus .healthy
    reportDue := if w.metricsInterval = .zero then none else some (timer + w.metricsInterval.nanos) }

/-- The first step of stopping; there is none when the watcher has been stopped. -/
def beginStop? (w : Watcher) : Option Watcher :=
  match w.lifecycle with
  | .stopped => none
  | _ => some { w with lifecycle := .stopped, health := w.health.setStatus .stopping }

/-- The last step of stopping: nothing is taken from the sources any more, and the pipeline is
stopped. -/
def endStop (w : Watcher) : Watcher :=
  { w with
    feeds := w.feeds.map fun f => { f with activity := none }
    reportDue := none
    pipeline := w.pipeline.stop }

/-- The watcher in diagnostics. -/
def diagnostic (w : Watcher) : String :=
  let names := ", ".intercalate (w.sourceNames.map Text.quoted)
  "Watcher \x7b sources: [" ++ names ++ "], lifecycle: " ++ w.lifecycle.diagnostic ++ ", health: " ++
    w.health.diagnostic ++ " \x7d"

end Watcher

end AdmissionWatch
