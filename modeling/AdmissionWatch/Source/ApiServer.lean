import AdmissionWatch.Environment
import AdmissionWatch.Failure
import AdmissionWatch.Http.Certificates
import AdmissionWatch.Http.Message
import AdmissionWatch.Http.Request
import AdmissionWatch.Json.Record
import AdmissionWatch.Text.Blank

/-!
# The API server

How policy events are listed: where, as whom, and what is made of the answer.
-/

namespace AdmissionWatch.Source

/-- The API server of a cluster. -/
structure ApiServer where
  /-- Its URL without a slash at the end. -/
  base : String
  /-- The token that names who asks. -/
  token : Option String
  deriving DecidableEq, Repr

namespace ApiServer

/-- The server at a URL. -/
def create (base : String) (token : Option String) : ApiServer :=
  { base := Text.trimEndOf '/' base, token }

/-- The port of an API server, if none is named. -/
def defaultPort : String := "443"

/-- The server of the cluster that the process runs in: its address is in the environment, the token
and the certificates of those who vouch for the server are in files. What stands for a file that
cannot be read is the reason. -/
def inCluster (env : Environment) (token certificates : Except String String) : Except Failure ApiServer := do
  let host ← match env.get? "KUBERNETES_SERVICE_HOST" with
    | some host => .ok host
    | none => .error (.config "KUBERNETES_SERVICE_HOST is not set; not running in a cluster")
  let port := (env.get? "KUBERNETES_SERVICE_PORT").getD defaultPort
  let token ← token.mapError fun e => .config ("failed to read service account token: " ++ e)
  let certificates ← certificates.mapError fun e => .config ("failed to read cluster CA: " ++ e)
  if Http.certificatesAreReadable certificates then
    let host := if host.contains ':' then "[" ++ host ++ "]" else host
    return create s!"https://{host}:{port}" (some (Text.trimmed token))
  else .error (.config "failed to build HTTP client: the certificates cannot be read")

/-- Which events are policy events. -/
def selector : String := "reason=PolicyViolation"

/-- The request that lists the policy events of all namespaces. -/
def request (s : ApiServer) : Http.Request where
  method := "GET"
  url := s.base ++ "/api/v1/events"
  fields := [("fieldSelector", selector)]
  headers := (s.token.map Http.bearer).toList

/-- What is reported of a status that is no success. -/
def refusal (status : Nat) : Failure :=
  let message := s!"listing events returned status {status}"
  if Http.isServerError status || status = Http.tooManyRequests then .retryableSource message
  else .nonRetryableSource message

open Json.Raw in
/-- Reads a list of events. -/
def items? (text : String) : Option (List Json) := do
  let found ← record? [["items"]] (← Json.Raw.read? text.toList)
  fieldOr found 0 [] (listOf? (value? (Json.maxDepth - 2)))

/-- What comes of the request: the events, or what is reported. -/
def events (exchange : Http.Exchange) : Except Failure (List Json) :=
  match exchange with
  | .error trouble => .error (.retryableSource ("failed to list events: " ++ trouble.message))
  | .ok answer =>
    if Http.isSuccess answer.status then
      match answer.body with
      | .error trouble => .error (.parse ("invalid event list: " ++ trouble.message))
      | .ok text =>
        match items? text with
        | some items => .ok items
        | none => .error (.parse "invalid event list: not as expected")
    else .error (refusal answer.status)

end ApiServer

end AdmissionWatch.Source
