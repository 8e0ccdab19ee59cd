import AdmissionWatch.Time.Span

/-!
# Backing off

The interval between polls doubles once after a run of failures and returns to its base after a
success.
-/

namespace AdmissionWatch.LogGroup

open Time

/-- The interval between polls, and what it depends on. -/
structure Backoff where
  base : Span
  /-- The interval at present. -/
  interval : Span
  /-- The failures counted towards the next change. -/
  failures : Nat := 0
  deriving DecidableEq, Repr

namespace Backoff

/-- After how many failures the interval changes. -/
def patience : Nat := 5

/-- The state before any poll. -/
def start (base : Span) : Backoff := { base, interval := base }

/-- After a poll that succeeded. -/
def onSuccess (b : Backoff) : Backoff := start b.base

/-- After a poll that failed. -/
def onFailure (b : Backoff) : Backoff :=
  if patience ≤ b.failures + 1 then { b with interval := b.base.times 2, failures := 0 }
  else { b with failures := b.failures + 1 }

end Backoff

end AdmissionWatch.LogGroup
