import AdmissionWatch.Time.Instant
import AdmissionWatch.Time.Moment

/-!
# Clocks

What an operation sees of time: the date for what it writes, and a moment for what it measures. The
two need not agree, since the date can be set. What waits goes by timers, whose moments are a third
reading.
-/

namespace AdmissionWatch.Time

/-- The time now. -/
structure Clock where
  /-- The time on the wall. -/
  date : Instant
  /-- The time on a clock that only goes forward. -/
  moment : Moment
  deriving DecidableEq, Repr, Inhabited

/-- The time now for what waits as well. -/
structure Now extends Clock where
  /-- The time that timers go by. -/
  timer : Moment
  deriving DecidableEq, Repr, Inhabited

end AdmissionWatch.Time
