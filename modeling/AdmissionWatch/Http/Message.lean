/-!
# Requests and answers

The parts of HTTP messages that this library decides on.
-/

namespace AdmissionWatch.Http

/-- An answer. -/
structure Response where
  status : Nat
  contentType : Option String := none
  body : String := ""
  deriving DecidableEq, Repr, Inhabited

/-- Whether a status tells of success. -/
def isSuccess (status : Nat) : Bool :=
  200 ≤ status && status ≤ 299

/-- Whether a status tells that the server failed. -/
def isServerError (status : Nat) : Bool :=
  500 ≤ status && status ≤ 599

/-- The status of a server that is asked too often. -/
def tooManyRequests : Nat := 429

end AdmissionWatch.Http
