import AdmissionWatch.Dict

/-!
# Cursors

How far each log has been read: the time of the newest entry that was looked at. The next read
starts there, so no entry of the same time is missed; those that come twice are held back by the
intake.
-/

namespace AdmissionWatch.LogGroup

/-- For each log, by its name, the time of the newest entry that was looked at. -/
abbrev Cursors := Dict Int

namespace Cursors

/-- The time of the newest entry of a log that was looked at. -/
def position? (cursors : Cursors) (name : String) : Option Int := cursors.get? name

/-- Where the next read of a log starts: at its cursor, and at the start of the window when that is
later or there is no cursor. -/
def startFor (cursors : Cursors) (name : String) (windowStart : Int) : Int :=
  match cursors.position? name with
  | some last => max last windowStart
  | none => windowStart

/-- Moves a cursor forward to a time; it never moves back. -/
def advance (cursors : Cursors) (name : String) (time : Int) : Cursors :=
  cursors.insert name (max ((cursors.position? name).getD time) time)

/-- Drops the cursors that the window has left behind. -/
def prune (cursors : Cursors) (windowStart : Int) : Cursors :=
  cursors.filter fun c => windowStart ≤ c.2

end Cursors

end AdmissionWatch.LogGroup
