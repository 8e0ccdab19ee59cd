import AdmissionWatch.Watcher.State

/-!
# Running a watcher

What a watcher does with the world around it. Everything that can be done at one time is done by
`settle`; after that nothing happens before `nextDue?`. `run` lets time pass. The world is a
parameter: it can be the one outside, or one that is made up.
-/

namespace AdmissionWatch.Watcher

open Time Dispatch Source

/-- What a watcher needs of the world. -/
structure World (m : Type → Type) where
  /-- Whether there is a file at a path. -/
  hasFile : String → m Bool
  /-- What is in the file at a path. -/
  content : String → m (Except Failure (List UInt8))
  /-- Lists the policy events of a cluster. -/
  list : ApiServer → m (Except Failure (List Json))
  /-- Makes a call to the log service. -/
  ask : LogGroup.Client → (c : LogGroup.Call) → m c.Reply
  /-- Hands a payload to the sink. -/
  deliver : Violation → m (Except Failure Unit)
  /-- Reports the counters. -/
  report : Telemetry.Snapshot → m Unit
  /-- Publishes updates, the earliest first. -/
  publish : List Telemetry.Update → m Unit

variable {m : Type → Type} [Monad m]

/-! ### The consumer -/

/-- How dispatching an event goes that was taken at some time, if the sink answers that. -/
def dispatched (w : Watcher) (e : Event) (since : Now) (reply : Except Failure Unit) : Dispatcher.Run Float :=
  w.dispatcher.dispatch (fun _ => reply) e since.timer

/-- When the consumer goes on, and with which payloads for the sink. Neither depends on what the
sink answers. -/
def ready? (w : Watcher) : Option (Moment × List Violation) :=
  match w.pipeline.consumer with
  | .dispatching e since =>
    let r := w.dispatched e since (.ok ())
    some (r.moment, r.sent)
  | _ => none

/-- Ends the dispatch of an event with what the sink answered. -/
def finishWith (w : Watcher) (reply : Except Failure Unit) (now : Clock) : Watcher :=
  match w.pipeline.consumer with
  | .dispatching e since =>
    let r := w.dispatched e since reply
    { w with
      dispatcher := r.dispatcher
      pipeline := (w.pipeline.publish r.updates).finish (.ofResult r.result) now }
  | _ => w

/-- What the sink answers to the payloads of one dispatch, of which there is one at most. -/
def World.reply (world : World m) : List Violation → m (Except Failure Unit)
  | payload :: _ => world.deliver payload
  | [] => pure (.ok ())

/-- Has the consumer end at most so many dispatches, as long as there is nothing to wait for. -/
def consumeUpTo (world : World m) (now : Now) : Nat → Watcher → m Watcher
  | 0, w => pure w
  | n + 1, w => do
    let w := { w with pipeline := w.pipeline.take now }
    match w.ready? with
    | some (moment, payloads) =>
      if moment ≤ now.timer then consumeUpTo world now n (w.finishWith (← world.reply payloads) now.toClock)
      else pure w
    | none => pure w

/-- Has the consumer do all it can. -/
def consume (w : Watcher) (world : World m) (now : Now) : m Watcher :=
  consumeUpTo world now (w.pipeline.intake.queue.length + 1) w

/-! ### The sources -/

/-- Replaces the intake. -/
def withIntake (w : Watcher) (intake : Intake) : Watcher :=
  { w with pipeline.intake := intake }

/-- What a source does after it has been started. The log group is asked for first, though nothing
depends on the answer. A file that is not there is never read. -/
def Feed.start (world : World m) (now : Now) (f : Feed) : m Feed := do
  if !f.setup.isEnabled then return f
  match f.setup with
  | .auditLog path interval =>
    let isThere ← world.hasFile path
    return { f with activity := if isThere && interval ≠ .zero then some (.scan now.timer) else none }
  | .policyEvents _ interval =>
    return { f with activity := if interval = .zero then none else some (.list now.timer []) }
  | .logGroup client settings =>
    let _ ← world.ask client (.groups settings.group 1)
    return { f with activity := some (.poll (.create settings now.timer)) }

/-- Does what a source does. -/
def Feed.act (world : World m) (now : Now) (isCut : Bool) (f : Feed) (intake : Intake) : m (Feed × Intake) := do
  match f.setup, f.activity with
  | .auditLog path interval, some (.scan due) =>
    let intake := match ← world.content path with
      | .ok content => (AuditLog.scan now.toClock intake content).intake
      | .error _ => intake
    return ({ f with activity := some (.scan (Moment.nextTick due now.timer interval)) }, intake)
  | .policyEvents server interval, some (.list due versions) =>
    let p := PolicyEvents.attempt now.toClock intake versions (← world.list server)
    return ({ f with activity := some (.list (Moment.nextTick due now.timer interval) p.versions) }, p.intake)
  | .logGroup client _, some (.poll poller) =>
    let (poller, intake) ← poller.goOn (world.ask client) now isCut intake
    return ({ f with activity := some (.poll poller) }, intake)
  | _, _ => return (f, intake)

/-- Whether a source has something to do. -/
def Feed.isDue (timer : Moment) (f : Feed) : Bool :=
  f.activity.any fun a => a.due ≤ timer

/-- Whether a source reads a file, which takes longer than to be told something. -/
def Feed.readsFile (f : Feed) : Bool :=
  match f.activity with
  | some (.scan _) => true
  | _ => false

/-- Whether a poll has been begun that is not over. -/
def Feed.isPolling (f : Feed) : Bool :=
  match f.activity with
  | some (.poll poller) => poller.begun.isSome
  | _ => false

/-- Has the source at a position act, if it is one of those that are meant; then the consumer, if
that is asked for. -/
def actAt (world : World m) (now : Now) (isCut : Bool) (isMeant : Feed → Bool) (thenConsume : Bool) (w : Watcher)
    (position : Nat) : m Watcher := do
  match w.feeds[position]? with
  | none => return w
  | some f =>
    if !isMeant f then return w
    let (f, intake) ← f.act world now isCut w.pipeline.intake
    let w := { w with feeds := w.feeds.set position f }.withIntake intake
    if thenConsume then w.consume world now else return w

/-- Has the sources that are meant act in turn. -/
def act (w : Watcher) (world : World m) (now : Now) (isCut : Bool) (isMeant : Feed → Bool)
    (thenConsume : Bool) : m Watcher :=
  (List.range w.feeds.length).foldlM (actAt world now isCut isMeant thenConsume) w

/-! ### The watcher -/

/-- Starts the watcher. -/
def start (w : Watcher) (world : World m) (now : Now) : m (Except Failure Watcher) := do
  match w.beginStart with
  | .error e => return .error e
  | .ok w =>
    let feeds ← w.feeds.mapM (Feed.start world now)
    return .ok ({ w with feeds }.endStart now.timer)

/-- Stops the watcher, if it has not been stopped. Polls that wait between two calls are cut off
first. -/
def stop (w : Watcher) (world : World m) (now : Now) : m Watcher := do
  match w.beginStop? with
  | none => return w
  | some w =>
    let w ← w.act world now true Feed.isPolling false
    let w := w.endStop
    world.report (w.metrics.snapshot now.moment)
    return w

/-- Reports the counters, if it is time to. -/
def reportIfDue (w : Watcher) (world : World m) (now : Now) : m Watcher := do
  match w.reportDue with
  | none => return w
  | some due =>
    if due ≤ now.timer then
      world.report (w.metrics.snapshot now.moment)
      return { w with reportDue := some (due + w.metricsInterval.nanos) }
    else return w

/-- Hands the updates that have come up to the world. -/
def publish (w : Watcher) (world : World m) : m Watcher := do
  world.publish w.metrics.published.reverse
  return { w with pipeline.intake.metrics.published := [] }

/-- Does everything that can be done now. What is read from a file comes after what comes from
elsewhere. -/
def settle (w : Watcher) (world : World m) (now : Now) : m Watcher := do
  let w ← w.consume world now
  let w ← w.act world now false (fun f => f.isDue now.timer && !f.readsFile) false
  let w ← w.consume world now
  let w ← w.act world now false (fun f => f.isDue now.timer && f.readsFile) true
  let w ← w.reportIfDue world now
  w.publish world

/-- When there is something to do next, unless events are submitted before. -/
def nextDue? (w : Watcher) : Option Moment :=
  ((w.feeds.filterMap fun f => f.activity.map Activity.due) ++ w.reportDue.toList ++
    (w.ready?.map Prod.fst).toList).min?

/-- How many milliseconds there is nothing to do: at least one, and no more than `most`
otherwise. -/
def restTime (w : Watcher) (timer : Moment) (most : Nat) : Nat :=
  match w.nextDue? with
  | some due => max 1 (min (Moment.millis (Moment.wholeMillis (due - timer))) most)
  | none => max 1 most

/-- Lets that many milliseconds pass. `now` tells the time and `rest` waits for a number of
milliseconds. -/
def run (world : World m) (now : m Now) (rest : Nat → m Unit) (millis : Nat) (w : Watcher) : m Watcher := do
  if _ : millis = 0 then return w
  else
    let t ← now
    let w ← w.settle world t
    let span := w.restTime t.timer millis
    rest span
    run world now rest (millis - span) w
termination_by millis
decreasing_by
  have : 1 ≤ w.restTime t.timer millis := by
    unfold restTime
    split <;> omega
  omega

end AdmissionWatch.Watcher
