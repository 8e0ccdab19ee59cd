import AdmissionWatch.Dispatch.Forward
import AdmissionWatch.Dispatch.TokenBucket
import AdmissionWatch.Verdict

/-!
# Handlers

A handler brings the events of one kind to a sink, under a rate limit of its own. Before anything is
sent it is decided what is to be sent: an event without policies and an outcome that is not reported
are filtered.
-/

namespace AdmissionWatch.Dispatch

open Time

/-- Why an event is not delivered although nothing is wrong with it. -/
inductive FilterReason where
  /-- No policy was recognised. -/
  | noPolicies
  /-- The outcome is not reported. -/
  | notBlocked
  deriving DecidableEq, Repr, Inhabited

/-- What is to be done with an event. -/
inductive Disposition where
  | filtered (reason : FilterReason)
  | deliver (payload : Violation)
  deriving Repr, Inhabited

/-- What is to be done with an event of a kind. -/
def Disposition.ofEvent (c : Category) (e : Event) : Except Failure Disposition := do
  let verdict ← Verdict.ofEvent c e
  if verdict.isMiss then return .filtered .noPolicies
  let (outcome, result) := Outcome.ofPolicyResult e.policyResult?
  if !(Forward.ofCategory c).allows outcome.blocked then return .filtered .notBlocked
  return .deliver (.ofEvent e verdict.policies verdict.message result outcome)

/-- What became of an event that was handled. -/
inductive Handled where
  | delivered
  | filtered (reason : FilterReason)
  deriving DecidableEq, Repr, Inhabited

/-- The outcome as it is reported. -/
def Handled.label : Handled → String
  | delivered => "delivered"
  | filtered .noPolicies => "no_policies"
  | filtered .notBlocked => "not_blocked"

/-- The handler of one kind. -/
structure Handler (α : Type) where
  category : Category
  /-- The name of the sink. -/
  sink : String
  bucket : TokenBucket α
  /-- How long a delivery waits for a token. -/
  patience : Span := .ofSeconds 30

namespace Handler

variable {α : Type} [Quantity α]

/-- A handler with a full bucket. -/
def create (c : Category) (sink : String) (perMinute : Nat) (now : Moment) : Handler α :=
  { category := c, sink, bucket := .create perMinute now }

/-- What handling an event came to. -/
structure Run (α : Type) where
  result : Except Failure Handled
  /-- The payloads that were handed to the sink. -/
  sent : List Violation
  /-- When it was over. -/
  moment : Moment
  handler : Handler α

/-- Handles an event; `reply` is what the sink answers to a payload. -/
def handle (h : Handler α) (reply : Violation → Except Failure Unit) (e : Event) (now : Moment) : Run α :=
  match Disposition.ofEvent h.category e with
  | .error f => ⟨.error f, [], now, h⟩
  | .ok (.filtered reason) => ⟨.ok (.filtered reason), [], now, h⟩
  | .ok (.deliver payload) =>
    let a := h.bucket.acquire h.patience now
    let h := { h with bucket := a.bucket }
    match a.result with
    | .error f => ⟨.error f, [], a.moment, h⟩
    | .ok () => ⟨(reply payload).map fun _ => .delivered, [payload], a.moment, h⟩

/-- The handler in diagnostics. -/
def diagnostic (h : Handler α) : String :=
  "ViolationHandler \x7b category: " ++ h.category.diagnostic ++ ", forward: "
    ++ (Forward.ofCategory h.category).diagnostic ++ ", sink: \"" ++ h.sink ++ "\", .. \x7d"

end Handler

end AdmissionWatch.Dispatch
