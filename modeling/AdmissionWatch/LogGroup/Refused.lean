import AdmissionWatch.Http.Message
import AdmissionWatch.LogGroup.Wire
import AdmissionWatch.Text.Search

/-!
# Refused calls

What is reported of a call that the service did not answer, and whether it may succeed later.
-/

namespace AdmissionWatch.LogGroup

/-- Texts that tell of a failure that passes. -/
def passingMarkers : List String :=
  ["timeout", "connection", "network", "dial", "ThrottlingException", "ServiceUnavailable", "InternalServerError",
   "TooManyRequestsException", "rate limit", "RateExceeded"]

/-- Whether a message tells of a failure that passes. -/
def isPassing (message : String) : Bool :=
  passingMarkers.any fun m => Text.hasText m message

/-- The kind of failure without the space of names it is from. -/
def Refusal.shortKind (r : Refusal) : String :=
  String.ofList ((Text.pieces '#' r.kind.toList).getLast?.getD [])

/-- What is reported of a call that was answered with a status that is no success. -/
def refusal (c : Call) (status : Nat) (r : Refusal) : Failure :=
  let message := s!"{c.operation} failed with status {status}: {r.shortKind}: {r.message}"
  if isPassing message || Http.isServerError status || status = Http.tooManyRequests then .retryableSource message
  else .nonRetryableSource message

/-- What is made of the answer to a call: the list in it, or what is reported. -/
def Call.readReply (c : Call) (status : Nat) (body : String) : c.Reply :=
  let raw := Json.Raw.read? body.toList
  if Http.isSuccess status then
    match raw.bind c.items? with
    | some items => .ok items
    | none => .error (.nonRetryableSource s!"{c.operation}: invalid response body: not as expected")
  else .error (refusal c status ((raw.bind Refusal.ofRaw?).getD {}))

end AdmissionWatch.LogGroup
