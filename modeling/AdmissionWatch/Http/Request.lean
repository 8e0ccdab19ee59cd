import AdmissionWatch.Http.Url

/-!
# Requests

A request as it is meant, what of it goes over the line, and what comes of it: an answer, whole or
cut off, or trouble on the way.
-/

namespace AdmissionWatch.Http

/-- A header: its name in lower case and its value. -/
abbrev Header := String × String

/-- A request as it is meant. -/
structure Request where
  method : String
  url : String
  /-- Fields to be added to the query. -/
  fields : List (String × String) := []
  headers : List Header := []
  body : String := ""
  deriving DecidableEq, Repr

/-- What goes over the line. -/
structure Sent where
  method : String
  /-- Path and query. -/
  target : String
  host : String
  headers : List Header
  body : String
  deriving DecidableEq, Repr

/-- The kinds of media named in the headers of requests. -/
def jsonType : String := "application/json"

/-- The authorization by a token. -/
def bearer (token : String) : Header := ("authorization", "Bearer " ++ token)

/-- Whether a text can be the value of a header. -/
def isHeaderValue (s : String) : Bool :=
  s.toList.all fun c => c = '\t' || (' ' ≤ c && c ≠ '\x7f')

namespace Request

/-- The URL that is asked. -/
def address? (r : Request) : Option Url :=
  match Url.read r.url with
  | .ok u => some (r.fields.foldl (fun u f => u.withField f.1 f.2) u)
  | .error _ => none

/-- What goes over the line; nothing when the URL is none to be asked or a header cannot be written.
The authorization of a user named in the URL comes before the other headers. -/
def sent? (r : Request) : Option Sent := do
  let url ← r.address?
  let host ← url.authority?
  if (url.scheme = "http" ∨ url.scheme = "https") ∧ r.headers.all fun h => isHeaderValue h.2 then
    let user := match url.userAuthorization? with
      | some a => [("authorization", a)]
      | none => []
    return { method := r.method, target := url.target, host, headers := user ++ r.headers, body := r.body }
  else none

end Request

/-- Trouble on the way. -/
inductive Trouble where
  /-- The request cannot be sent at all. -/
  | notSent
  /-- There is nobody to send it to. -/
  | notConnected
  /-- No answer came in time. -/
  | timedOut
  /-- The connection ended too early. -/
  | interrupted
  deriving DecidableEq, Repr

/-- What is reported of it. -/
def Trouble.message : Trouble → String
  | notSent => "the request cannot be sent"
  | notConnected => "no connection"
  | timedOut => "operation timed out"
  | interrupted => "connection closed before message completed"

/-- An answer that came, its body possibly not as a whole. -/
structure Answer where
  status : Nat
  body : Except Trouble String

/-- What comes of a request. -/
abbrev Exchange := Except Trouble Answer

end AdmissionWatch.Http
