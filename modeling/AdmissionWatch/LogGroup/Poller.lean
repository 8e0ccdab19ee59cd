import AdmissionWatch.LogGroup.Backoff
import AdmissionWatch.LogGroup.Poll

/-!
# Polling again and again

A poller polls its log group, waits for as long as its backoff says and polls again. A poll itself
may wait between two calls, so the poller goes on in steps: each runs a session up to where it has
to wait.
-/

namespace AdmissionWatch.LogGroup

open Time

/-- How far a session has come without waiting. -/
inductive Session.Progress (α : Type) where
  | over (result : α)
  /-- It has to wait, and goes on with `true` when it is cut off. -/
  | waiting (span : Span) (resume : Bool → Session α)

/-- Runs a session up to where it has to wait, or to its end if it is cut off. Messages go to the
intake. -/
def Session.advance {m : Type → Type} [Monad m] {α : Type} (ask : (c : Call) → m c.Reply) (now : Clock)
    (isCut : Bool) : Session α → Intake → m (Progress α × Intake)
  | .done a, intake => pure (.over a, intake)
  | .ask c resume, intake => do (resume (← ask c)).advance ask now isCut intake
  | .pause d resume, intake =>
    if isCut then (resume true).advance ask now isCut intake else pure (.waiting d resume, intake)
  | .hand messages resume, intake =>
    let p := readMessages now intake messages
    (resume p.tally).advance ask now isCut p.intake

/-- What a poll comes to: what it met or why it failed, and the cursors for the next. -/
abbrev Polled := Except Failure Source.Tally × Cursors

/-- A log group that is being polled. -/
structure Poller where
  settings : Settings
  cursors : Cursors := []
  backoff : Backoff
  /-- How the poll goes on that has been begun. -/
  begun : Option (Bool → Session Polled) := none
  /-- When the poller goes on. -/
  due : Moment

namespace Poller

/-- A poller that polls at once. -/
def create (settings : Settings) (now : Moment) : Poller :=
  { settings, backoff := .start settings.interval, due := now }

/-- What is to be done next. -/
def next (p : Poller) (now : Clock) (isCut : Bool) : Session Polled :=
  match p.begun with
  | some resume => resume isCut
  | none => poll p.settings now.date p.cursors

/-- The poller after a session has come that far. -/
def after (p : Poller) (timer : Moment) : Session.Progress Polled → Poller
  | .waiting d resume => { p with begun := some resume, due := timer.wakeTime d }
  | .over (result, cursors) =>
    let backoff := match result with
      | .ok _ => p.backoff.onSuccess
      | .error _ => p.backoff.onFailure
    { p with cursors, backoff, begun := none, due := timer.wakeTime backoff.interval }

/-- Goes on up to where the poller has to wait, or to the end of the poll if it is cut off. -/
def goOn {m : Type → Type} [Monad m] (p : Poller) (ask : (c : Call) → m c.Reply) (now : Now) (isCut : Bool)
    (intake : Intake) : m (Poller × Intake) := do
  let (progress, intake) ← (p.next now.toClock isCut).advance ask now.toClock isCut intake
  return (p.after now.timer progress, intake)

end Poller

end AdmissionWatch.LogGroup
