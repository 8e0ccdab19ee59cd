import AdmissionWatch.Http.Request
import AdmissionWatch.Json.Printer
import AdmissionWatch.LogGroup.Refused
import AdmissionWatch.Signing

/-!
# The client of the log service

Where calls are sent, how they are signed, and what is made of the answers.
-/

namespace AdmissionWatch.LogGroup

open Time

/-- Where calls are sent and who signs them. -/
structure Client where
  /-- The URL that all calls are sent to. -/
  url : String
  /-- The host that is signed. -/
  host : String
  signer : Signing.Signer
  deriving DecidableEq, Repr

/-- The URL of the service in a region. -/
def regionEndpoint (region : String) : String := s!"https://logs.{region}.amazonaws.com"

namespace Client

/-- The path that is signed. -/
def path : String := "/"

/-- The client for a region, or for another endpoint when one is given. -/
def create (region : String) (endpoint : Option String) (credentials : Signing.Credentials) : Except Failure Client :=
  let endpoint := (endpoint.map (Text.trimEndOf '/')).getD (regionEndpoint region)
  match Http.Url.read endpoint with
  | .error e => .error (.config s!"invalid CloudWatch endpoint {endpoint}: {e.message}")
  | .ok url =>
    match url.authority? with
    | none => .error (.config s!"CloudWatch endpoint {endpoint} has no host")
    | some host => .ok { url := endpoint ++ "/", host, signer := { credentials, region, service := "logs" } }

/-- The kind of media that calls are. -/
def callType : String := "application/x-amz-json-1.1"

/-- The headers of a call that are signed besides those of every signed request. -/
def signedHeaders (c : Call) : List Http.Header :=
  [("content-type", callType), ("x-amz-target", "Logs_20140328." ++ c.operation)]

/-- What is signed of a call. -/
def toSign (client : Client) (c : Call) : Signing.Request where
  method := "POST"
  host := client.host
  path := path
  headers := signedHeaders c
  body := c.body.text.toUTF8.toList

/-- The request that makes a call. -/
def request (client : Client) (d : Signing.Digests) (c : Call) (now : Instant) : Http.Request :=
  let signature := client.signer.sign d (client.toSign c) now
  let token := match signature.token with
    | some t => [("x-amz-security-token", t)]
    | none => []
  { method := "POST"
    url := client.url
    headers := signedHeaders c ++ [("x-amz-date", signature.date), ("authorization", signature.authorization)] ++ token
    body := c.body.text }

/-- What is reported of trouble on the way. -/
def trouble (c : Call) (t : Http.Trouble) : Failure :=
  let kind := match t with
    | .timedOut => "timeout"
    | .notConnected => "connection error"
    | .notSent | .interrupted => "network error"
  .retryableSource s!"{c.operation}: {kind}: {t.message}"

/-- What comes of a call. -/
def reply (c : Call) (exchange : Http.Exchange) : c.Reply :=
  match exchange with
  | .error t => .error (trouble c t)
  | .ok answer =>
    match answer.body with
    | .error t => .error (trouble c t)
    | .ok body => c.readReply answer.status body

end Client

end AdmissionWatch.LogGroup
