import AdmissionWatch.Dispatch.Quantity
import AdmissionWatch.Failure
import AdmissionWatch.Time.Moment

/-!
# Token buckets

A bucket holds at most one token, which comes back at a steady rate. Whoever takes a token when
there is not a whole one is told how long it will take; `acquire` waits for it, but no longer than a
limit.
-/

namespace AdmissionWatch.Dispatch

open Time

/-- A bucket for one token. -/
structure TokenBucket (α : Type) where
  /-- How much of a token there is. -/
  tokens : α
  /-- When that was so. -/
  refilled : Moment
  /-- Tokens per second. -/
  rate : α
  deriving Repr

/-- What came of an attempt to take a token. -/
inductive Attempt (α : Type) where
  | taken
  /-- There will be a token in so many seconds, a whole number of nanoseconds. -/
  | wait (seconds : α)
  /-- There will never be one. -/
  | never
  deriving DecidableEq, Repr

namespace TokenBucket

variable {α : Type} [Quantity α]

/-- What a bucket holds at most. -/
def full : α := Quantity.ofNat 1

/-- A full bucket for so many tokens a minute. -/
def create (perMinute : Nat) (now : Moment) : TokenBucket α :=
  { tokens := full, refilled := now, rate := Quantity.ofNat perMinute / Quantity.ofNat 60 }

/-- The bucket with the tokens that have come back. -/
def refill (b : TokenBucket α) (now : Moment) : TokenBucket α :=
  { b with
    tokens := min (b.tokens + Quantity.seconds (b.refilled.elapsed now) * b.rate) full
    refilled := now }

/-- In how many seconds there is a whole token. -/
def missing (b : TokenBucket α) : α := (full - b.tokens) / b.rate

/-- Takes a token if there is one, or tells to the nearest nanosecond how long it will take. -/
def tryTake (b : TokenBucket α) (now : Moment) : Attempt α × TokenBucket α :=
  let b := b.refill now
  if full ≤ b.tokens then (.taken, { b with tokens := b.tokens - full })
  else if b.rate ≤ Quantity.ofNat 0 then (.never, b)
  else (.wait (Quantity.seconds (Quantity.span b.missing)), b)

/-- The failure to get a token in time. -/
def lateFailure (timeout : Span) : Failure :=
  .rateLimitExceeded ("no token available within " ++ timeout.diagnostic)

/-- What came of waiting for a token: whether there was one, when that was known, and the bucket
then. -/
structure Acquired (α : Type) where
  result : Except Failure Unit
  moment : Moment
  bucket : TokenBucket α

/-- Takes a token, waiting up to a deadline. -/
def acquireBy (b : TokenBucket α) (timeout : Span) (deadline now : Nat) : Acquired α :=
  match b.tryTake now with
  | (.taken, b) => ⟨.ok (), now, b⟩
  | (.never, b) => ⟨.error (lateFailure timeout), now, b⟩
  | (.wait w, b) =>
    let d := Quantity.span w
    if deadline < now + d.nanos then ⟨.error (lateFailure timeout), now, b⟩
    else acquireBy b timeout deadline (Moment.wakeTime now d)
termination_by deadline + 1 - now
decreasing_by
  have _ := Moment.lt_wakeTime now (Quantity.span w)
  omega

/-- Takes a token, waiting for it no longer than `timeout`. -/
def acquire (b : TokenBucket α) (timeout : Span) (now : Moment) : Acquired α :=
  b.acquireBy timeout (now + timeout.nanos) now

end TokenBucket

end AdmissionWatch.Dispatch
