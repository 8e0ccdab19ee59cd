import AdmissionWatch.LogGroup.Budget
import AdmissionWatch.LogGroup.Cursors
import AdmissionWatch.LogGroup.Retry
import AdmissionWatch.LogGroup.Settings
import AdmissionWatch.Source.AuditLog

/-!
# Polling a log group

One poll reads the recent entries of a log group, each of which holds an audit record: of every log
stream to which something was added recently, or, when there is a pattern, of all log streams in one
query. It fails when the log streams cannot be listed or the query fails; a log stream that cannot
be read is left for the next poll.
-/

namespace AdmissionWatch.LogGroup

open Time Source

/-- The name of this source. -/
def sourceName : String := "cloudwatch"

/-- How many log streams are looked at. -/
def streamLimit : Nat := 50

/-- How far back entries are read. -/
def recentWindow : Span := .ofSeconds 300

/-- The start of the window that ends at a date, in milliseconds since the epoch. -/
def windowStart (date : Instant) : Int :=
  date.millis - recentWindow.millis

/-- Looks at a message. -/
def readMessage (now : Clock) (p : Pass) (message : String) : Pass :=
  let p := { p with tally := p.tally.addRecord }
  match Audit.Record.read message with
  | .ok r => p.submitRecord now sourceName r
  | .error _ => { p with tally := p.tally.addMalformed }

/-- Looks at messages in turn, at all of them at one reading of the clock. Where each message is to have
its own, this is an errand, which is told the time at each step. -/
def readMessages (now : Clock) (intake : Intake) (messages : List String) : Pass :=
  messages.foldl (readMessage now) { intake }

/-- The time of the newest entry, if one has a time. -/
def newest? (entries : List Entry) : Option Int :=
  (entries.filterMap (·.time)).max?

/-- How far a poll has come. -/
structure Poll where
  cursors : Cursors
  budget : Budget
  tally : Tally := {}

namespace Poll

/-- Looks at a batch of entries of the log called `name`, as far as the budget goes. -/
def look (p : Poll) (name : String) (batch : List Entry) : Session Poll := do
  let (taken, budget) := p.budget.take batch
  let tally ← Session.hand (taken.map (·.message)) .done
  let cursors := ((newest? taken).map (p.cursors.advance name)).getD p.cursors
  return { cursors, budget, tally := p.tally + tally }

/-- Whether something was added to a log stream since `start`. -/
def isRecent (start : Int) (s : Stream) : Bool :=
  s.lastIngestion.any (start ≤ ·)

/-- Reads a log stream. -/
def readStream (s : Settings) (start : Int) (p : Poll) (stream : Stream) : Session Poll :=
  if !isRecent start stream || p.budget.isSpent then return p
  else do
    match ← retry .entries (.entries s.group stream.name (p.cursors.startFor stream.name start) s.batchSize) with
    | .ok batch => p.look stream.name batch
    | .error _ => return p

/-- Reads log streams in turn. -/
def readStreams (s : Settings) (start : Int) (p : Poll) : List Stream → Session Poll
  | [] => return p
  | stream :: rest => do readStreams s start (← p.readStream s start stream) rest

/-- Reads the group by a query. -/
def readMatching (s : Settings) (pattern : String) (start : Int) (p : Poll) : Session (Except Failure Poll) := do
  match ← retry .entries (.matching s.group pattern (p.cursors.startFor s.group start) s.batchSize) with
  | .ok batch => return .ok (← p.look s.group batch)
  | .error e => return .error e

/-- Reads the group log stream by log stream. -/
def readGroup (s : Settings) (start : Int) (p : Poll) : Session (Except Failure Poll) := do
  match ← retry .streams (.streams s.group streamLimit) with
  | .ok streams => return .ok (← p.readStreams s start streams)
  | .error e => return .error e

end Poll

/-- Polls the group once at a date. Also answered: the cursors for the next poll. -/
def poll (s : Settings) (date : Instant) (cursors : Cursors) : Session (Except Failure Tally × Cursors) := do
  let start := windowStart date
  let cursors := cursors.prune start
  let p : Poll := { cursors, budget := { limit := s.maxBytes } }
  let result ←
    match s.pattern.filter (· ≠ "") with
    | some pattern => p.readMatching s pattern start
    | none => p.readGroup s start
  match result with
  | .ok p => return (.ok p.tally, p.cursors)
  | .error e => return (.error e, cursors)

end AdmissionWatch.LogGroup
