import AdmissionWatch.Dispatch.Dispatcher
import AdmissionWatch.Intake
import AdmissionWatch.Time.Clock

/-!
# The pipeline

The intake with its consumer, which takes one event after the other out of the channel and has it
dispatched. Each event that was queued is counted once at its end: as delivered, as filtered, as
failed, or as dropped when the pipeline is stopped first.
-/

namespace AdmissionWatch.Watcher

open Time Telemetry

/-- What the consumer is doing. -/
inductive Consumer where
  /-- It has not been started. -/
  | unstarted
  /-- It waits for an event. -/
  | waiting
  /-- It has an event dispatched that it took at that time. -/
  | dispatching (event : Event) (since : Now)
  /-- It is over. -/
  | finished
  deriving Repr, Inhabited

/-- How a dispatched event is counted. -/
inductive Ending where
  | delivered
  | filtered
  | failed
  deriving DecidableEq, Repr, Inhabited

namespace Ending

/-- How an event is counted of which that came; what no handler took counts as filtered. -/
def ofResult : Except Failure Dispatch.Dispatched → Ending
  | .ok (.handled _ .delivered) => delivered
  | .ok (.handled _ (.filtered _)) | .ok .unrouted => filtered
  | .error _ => failed

/-- The change that counts it. -/
def change : Ending → Metrics.Change
  | delivered => .delivered
  | filtered => .filtered
  | failed => .failed

end Ending

/-- The intake and its consumer. -/
structure Pipeline where
  intake : Intake
  consumer : Consumer := .unstarted

namespace Pipeline

/-- A pipeline without events. -/
def create (capacity : Nat) (now : Moment) : Pipeline :=
  { intake := .create capacity .empty now }

/-- Records a change in the collector. -/
def record (p : Pipeline) (change : Metrics.Change) : Pipeline :=
  { p with intake := p.intake.record change }

/-- Publishes updates. -/
def publish (p : Pipeline) (updates : List Update) : Pipeline :=
  { p with intake.metrics := updates.foldl Metrics.publish p.intake.metrics }

/-- Submits an event under an identifier. -/
def submit (p : Pipeline) (id : String) (e : Event) (now : Clock) : Submission × Pipeline :=
  let (outcome, intake) := p.intake.submit id e now.moment
  (outcome, { p with intake })

/-- Starts the consumer. -/
def start (p : Pipeline) : Pipeline :=
  match p.consumer with
  | .unstarted => { p with consumer := .waiting }
  | _ => p

/-- Has the consumer take an event, if it waits for one and there is one. -/
def take (p : Pipeline) (now : Now) : Pipeline :=
  match p.consumer, p.intake.take? with
  | .waiting, some (e, intake) => { intake := intake.record .left, consumer := .dispatching e now }
  | _, _ => p

/-- Ends the dispatch of an event. -/
def finish (p : Pipeline) (ending : Ending) (now : Clock) : Pipeline :=
  match p.consumer with
  | .dispatching _ since =>
    { (((p.record ending.change).record (.took (since.moment.elapsed now.moment))).record .processed) with
      consumer := .waiting }
  | _ => p

/-- Stops the consumer. The event it has dispatched is abandoned and those in the channel are
discarded; all of them count as dropped. -/
def stop (p : Pipeline) : Pipeline :=
  let p := match p.consumer with
    | .dispatching .. => p.record .dropped
    | _ => p
  { intake := p.intake.discard, consumer := .finished }

end Pipeline

end AdmissionWatch.Watcher
