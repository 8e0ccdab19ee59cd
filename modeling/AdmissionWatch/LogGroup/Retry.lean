import AdmissionWatch.LogGroup.Session

/-!
# Trying again

A call that fails in passing is made again after a while, up to a number of attempts. Success and
failures of other kinds are final.
-/

namespace AdmissionWatch.LogGroup

open Time

/-- How often a call is made at most, and how long it is from one attempt to the next. -/
structure RetryRule where
  attempts : Nat
  delay : Span
  deriving DecidableEq, Repr

namespace RetryRule

/-- For the list of log streams. -/
def streams : RetryRule := ⟨3, .ofSeconds 2⟩

/-- For the entries of logs. -/
def entries : RetryRule := ⟨2, .ofSeconds 1⟩

end RetryRule

/-- What is reported when the last attempt has failed. -/
def exhausted (rule : RetryRule) (c : Call) (e : Failure) : Failure :=
  .retryableSource s!"{c.operation} failed after {rule.attempts} attempts: {e.message}"

/-- What is reported when the session is cut off between attempts. -/
def cutOff (c : Call) : Failure :=
  .internal (c.operation ++ " cancelled")

/-- Whether an answer is a failure that may pass. -/
def failedInPassing {c : Call} : c.Reply → Bool
  | .ok _ => false
  | .error e => e.isRetryable

/-- What the answer to the last attempt amounts to. -/
def lastReply (rule : RetryRule) (c : Call) : c.Reply → c.Reply
  | .ok items => .ok items
  | .error e => .error (if e.isRetryable then exhausted rule c e else e)

/-- Makes a call, and at most `left` more times when it fails in passing. -/
def attempt (rule : RetryRule) (c : Call) : Nat → Session c.Reply
  | 0 => .ask c fun reply => .done (lastReply rule c reply)
  | left + 1 =>
    .ask c fun reply =>
      if failedInPassing reply then
        .pause rule.delay fun isCut => if isCut then .done (.error (cutOff c)) else attempt rule c left
      else .done reply

/-- Makes a call as often as the rule allows. -/
def retry (rule : RetryRule) (c : Call) : Session c.Reply :=
  attempt rule c (rule.attempts - 1)

end AdmissionWatch.LogGroup
