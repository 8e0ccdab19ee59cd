import AdmissionWatch.Digest.Hmac
import AdmissionWatch.Environment
import AdmissionWatch.Failure
import AdmissionWatch.Text.Hex
import AdmissionWatch.Text.Quoted
import AdmissionWatch.Time.Instant

/-!
# Signed requests

Version 4 of the signatures of Amazon Web Services. What is signed is a canonical form of the
request: header names in lower case, values without blanks around them, and all headers in order.
The digests it uses are parameters, so that what depends on them alone can be told from what does
not.
-/

namespace AdmissionWatch.Signing

open Time

/-- The digests that signatures are made with. -/
structure Digests where
  /-- The digest of a message. -/
  plain : List UInt8 → List UInt8
  /-- The digest of a message under a key. -/
  keyed : List UInt8 → List UInt8 → List UInt8

/-- The digests in use. -/
def Digests.sha256 : Digests := ⟨Digest.sha256, Digest.hmacSha256⟩

/-- The name of the signatures that these digests make. -/
def algorithm : String := "AWS4-HMAC-SHA256"

/-- Who signs. -/
structure Credentials where
  keyId : String
  secret : String
  /-- The token of a session, when the key belongs to one. -/
  token : Option String := none
  deriving DecidableEq, Repr

/-- The credentials in the environment. An empty token of a session is none. -/
def Credentials.ofEnvironment (env : Environment) : Except Failure Credentials := do
  let need (name : String) : Except Failure String :=
    match env.get? name with
    | some value => .ok value
    | none => .error (.config (name ++ " is not set"))
  let keyId ← need "AWS_ACCESS_KEY_ID"
  let secret ← need "AWS_SECRET_ACCESS_KEY"
  return { keyId, secret, token := (env.get? "AWS_SESSION_TOKEN").filter (· ≠ "") }

/-- A rendering for diagnostics, in which nothing secret is shown. -/
def Credentials.diagnostic (c : Credentials) : String :=
  let token := match c.token with
    | some _ => "Some(\"<redacted>\")"
    | none => "None"
  "Credentials \x7b access_key_id: " ++ Text.quoted c.keyId ++
    ", secret_access_key: \"<redacted>\", session_token: " ++ token ++
    " \x7d"

/-- A header: its name and its value. -/
abbrev Header := String × String

/-- What is to be signed. There is no query. -/
structure Request where
  method : String
  host : String
  path : String
  /-- The headers to be signed besides those that every signed request has. -/
  headers : List Header
  body : List UInt8

/-- For what the signatures of some credentials are good. -/
structure Signer where
  credentials : Credentials
  region : String
  service : String
  deriving DecidableEq, Repr

/-- What is sent along with a signed request. -/
structure Signature where
  /-- When it was signed. -/
  date : String
  authorization : String
  /-- The token of the session. -/
  token : Option String
  deriving DecidableEq, Repr

/-- A header in its canonical form. -/
def canonical (h : Header) : Header :=
  (String.ofList (h.1.toList.map Char.toLower), Text.trimmed h.2)

/-- Whether a header comes before another or is the same: by name, and by value where the names are
the same. -/
def comesFirst (a b : Header) : Bool :=
  a.1 < b.1 || (a.1 == b.1 && a.2 ≤ b.2)

/-- The last part of every scope. -/
def terminator : String := "aws4_request"

/-- The key for the signatures of one day. -/
def signingKey (d : Digests) (secret day region service : String) : List UInt8 :=
  [day, region, service, terminator].foldl (fun key part => d.keyed key part.toUTF8.toList)
    ("AWS4" ++ secret).toUTF8.toList

namespace Signer

/-- All headers of a request in their order. -/
def headers (s : Signer) (r : Request) (date : String) : List Header :=
  let token := match s.credentials.token with
    | some t => [("x-amz-security-token", t)]
    | none => []
  (r.headers.map canonical ++ [("host", r.host), ("x-amz-date", date)] ++ token).mergeSort comesFirst

/-- The names of headers, as they are listed in a signature. -/
def names (headers : List Header) : String :=
  ";".intercalate (headers.map Prod.fst)

/-- The canonical form of a request. -/
def canonicalRequest (d : Digests) (r : Request) (headers : List Header) : String :=
  let lines := String.join (headers.map fun h => h.1 ++ ":" ++ h.2 ++ "\n")
  "\n".intercalate [r.method, r.path, "", lines, names headers, Text.hexOfBytes (d.plain r.body)]

/-- For what a signature of some day is good. -/
def scope (s : Signer) (day : String) : String :=
  "/".intercalate [day, s.region, s.service, terminator]

/-- Signs a request at a time. -/
def sign (s : Signer) (d : Digests) (r : Request) (now : Instant) : Signature :=
  let date := now.basicText
  let day := now.basicDate
  let headers := s.headers r date
  let scope := s.scope day
  let request := Text.hexOfBytes (d.plain (canonicalRequest d r headers).toUTF8.toList)
  let signed := "\n".intercalate [algorithm, date, scope, request]
  let key := signingKey d s.credentials.secret day s.region s.service
  let signature := Text.hexOfBytes (d.keyed key signed.toUTF8.toList)
  { date
    authorization :=
      s!"{algorithm} Credential={s.credentials.keyId}/{scope}, SignedHeaders={names headers}, Signature={signature}"
    token := s.credentials.token }

end Signer

end AdmissionWatch.Signing
