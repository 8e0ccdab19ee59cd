import AdmissionWatch.Time.Span

/-!
# Moments

Readings of a clock that only goes forward. They are comparable among themselves and tell nothing
about the date.
-/

namespace AdmissionWatch.Time

/-- Nanoseconds since the clock was started. -/
abbrev Moment := Nat

namespace Moment

/-- The time from `earlier` to `now`; none at all if it is the other way round. -/
def elapsed (earlier now : Moment) : Span := ⟨now - earlier⟩

/-- The moment that much later. -/
def later (m : Moment) (d : Span) : Moment := m + d.nanos

/-- So many milliseconds after the start. -/
def ofMillis (n : Nat) : Moment := n * 1000000

/-- The whole milliseconds since the start. -/
def millis (m : Moment) : Nat := m / 1000000

/-- The first whole millisecond that is not before the moment. -/
def wholeMillis (m : Moment) : Moment := (m + 999999) / 1000000 * 1000000

/-- How late a tick may be. -/
def tickTolerance : Span := .ofMillis 5

/-- When a wait of that length ends: timers fire at whole milliseconds, and none at once. -/
def wakeTime (now : Moment) (d : Span) : Moment :=
  wholeMillis (now + max d.nanos 1)

theorem lt_wakeTime (now : Nat) (d : Span) : now < wakeTime now d := by
  show now < (now + max d.nanos 1 + 999999) / 1000000 * 1000000
  omega

/-- When what was due at a moment and has an interval is due again. What is more than a little late
starts its interval anew. -/
def nextTick (due now : Moment) (interval : Span) : Moment :=
  if due + tickTolerance.nanos < now then now + interval.nanos else due + interval.nanos

end Moment

end AdmissionWatch.Time
