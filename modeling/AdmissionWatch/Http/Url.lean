import AdmissionWatch.Http.Host
import AdmissionWatch.Text.Base64

/-!
# URLs

A URL is read as the browsers' standard has it: blanks around it and line breaks in it do not count,
the scheme and the host are lower-cased, a port that is the one of the scheme is dropped, the path
has no parts `.` and `..`, and characters without a place are encoded. The fragment is dropped,
since it is never sent.
-/

namespace AdmissionWatch.Http

/-- A URL that was read. -/
structure Url where
  scheme : String
  user : String := ""
  password : Option String := none
  host : Option String := none
  /-- The port, if it is not the one of the scheme. -/
  port : Option Nat := none
  path : String := ""
  query : Option String := none
  deriving DecidableEq, Repr, Inhabited

/-- The schemes of network addresses with their ports. -/
def networkSchemes : List (String × Nat) :=
  [("http", 80), ("https", 443), ("ws", 80), ("wss", 443), ("ftp", 21)]

/-- The port of a scheme. -/
def schemePort? (scheme : String) : Option Nat := networkSchemes.lookup scheme

/-- Splits a scheme from what follows the colon. -/
def splitScheme? (s : List Char) : Option (String × List Char) :=
  match Text.splitOnce [':'] s with
  | some (c :: scheme, rest) =>
    if c.isAlpha ∧ scheme.all (fun c => c.isAlphanum || ['+', '-', '.'].contains c) then
      some (String.ofList ((c :: scheme).map Char.toLower), rest)
    else none
  | _ => none

/-- The texts before and after the last occurrence of a character. -/
def splitLast? (c : Char) (s : List Char) : Option (List Char × List Char) :=
  match Text.splitOnce [c] s.reverse with
  | some (after, before) => some (before.reverse, after.reverse)
  | none => none

/-- Splits a port from a host; a colon between square brackets is part of the host. -/
def splitPort (s : List Char) : List Char × Option (List Char) :=
  let bracketed := match s with
    | '[' :: _ => (s.takeWhile (· ≠ ']')).length
    | _ => 0
  let tail := s.drop bracketed
  match Text.splitOnce [':'] tail with
  | some (before, port) => (s.take bracketed ++ before, some port)
  | none => (s, none)

/-- Reads a port. -/
def readPort (scheme : String) (port : Option (List Char)) : Except UrlError (Option Nat) :=
  match port with
  | none | some [] => .ok none
  | some digits =>
    match Text.nat? digits with
    | some n => if 65535 < n then .error .badPort else .ok (if schemePort? scheme = some n then none else some n)
    | none => .error .badPort

/-- Whether a part of a path is the part itself. -/
def isDot (s : List Char) : Bool :=
  [".", "%2e"].contains (String.ofList (s.map Char.toLower))

/-- Whether a part of a path is the part above. -/
def isDotDot (s : List Char) : Bool :=
  ["..", ".%2e", "%2e.", "%2e%2e"].contains (String.ofList (s.map Char.toLower))

/-- The parts of a path after those before it have been read; `done` is reversed. -/
def resolveParts (done : List (List Char)) : List (List Char) → List (List Char)
  | [] => done.reverse
  | [last] =>
    if isDotDot last then ([] :: done.drop 1).reverse
    else if isDot last then ([] :: done).reverse
    else (last :: done).reverse
  | part :: rest =>
    if isDotDot part then resolveParts (done.drop 1) rest
    else if isDot part then resolveParts done rest
    else resolveParts (part :: done) rest

/-- A path that starts with a slash or is empty. -/
def readPath (s : List Char) : String :=
  let parts := (Text.pieces '/' (s.drop 1)).map (percentEncoded notInPath)
  String.ofList (List.intercalate ['/'] ([] :: resolveParts [] parts))

/-- Whether a character ends the part of a URL that names user, host and port. -/
def endsAuthority (isNetwork : Bool) (c : Char) : Bool := c = '/' || (isNetwork && c = '\\')

/-- Reads user, host, port and path. -/
def readAuthority (scheme : String) (isNetwork : Bool) (s : List Char) (query : Option String) :
    Except UrlError Url := do
  let authority := s.takeWhile fun c => !endsAuthority isNetwork c
  let path := (s.dropWhile fun c => !endsAuthority isNetwork c).map fun c =>
    if endsAuthority isNetwork c then '/' else c
  let (info, address) := (splitLast? '@' authority).getD ([], authority)
  let (user, password) := (Text.splitOnce [':'] info).getD (info, [])
  let (host, port) := splitPort address
  if host = [] ∧ (isNetwork ∨ port.isSome ∨ info ≠ []) then throw .emptyHost
  let host ← if isNetwork then readHost host else readOpaqueHost host
  let port ← readPort scheme port
  let encoded (s : List Char) := String.ofList (percentEncoded notInUser s)
  return { scheme, user := encoded user, password := if password = [] then none else some (encoded password),
           host := if host = "" then none else some host, port,
           path := if path = [] ∧ !isNetwork then "" else readPath path, query }

/-- The query in what follows a scheme. -/
def queryOf (rest : List Char) : Option String :=
  match rest.dropWhile (· ≠ '?') with
  | _ :: q => some (String.ofList (percentEncoded notInQuery q))
  | [] => none

/-- Reads what follows a scheme, without a fragment. -/
def readRest (scheme : String) (rest : List Char) : Except UrlError Url :=
  let hierarchy := rest.takeWhile (· ≠ '?')
  if (schemePort? scheme).isSome then
    readAuthority scheme true (hierarchy.dropWhile (endsAuthority true)) (queryOf rest)
  else
    match hierarchy with
    | '/' :: '/' :: authority => readAuthority scheme false authority (queryOf rest)
    | '/' :: _ => return { scheme, path := readPath hierarchy, query := queryOf rest }
    | _ => return { scheme, path := String.ofList (percentEncoded isOutside hierarchy), query := queryOf rest }

/-- What does not count at either end of a URL. -/
def isEdge (c : Char) : Bool := c ≤ ' '

/-- What does not count anywhere in a URL. -/
def isBreak (c : Char) : Bool := ['\t', '\n', '\r'].contains c

/-- The characters of a URL that count. -/
def counted (s : List Char) : List Char :=
  ((s.dropWhile isEdge).reverse.dropWhile isEdge).reverse.filter fun c => !isBreak c

/-- Reads a URL. -/
def Url.read (text : String) : Except UrlError Url :=
  match splitScheme? (counted text.toList) with
  | none => .error .noScheme
  | some (scheme, rest) => readRest scheme (rest.takeWhile (· ≠ '#'))

namespace Url

/-- Host and port, as a request names them. -/
def authority? (u : Url) : Option String :=
  u.host.map fun host =>
    match u.port with
    | some port => s!"{host}:{port}"
    | none => host

/-- Path and query, as a request names them. -/
def target (u : Url) : String :=
  match u.query with
  | some q => u.path ++ "?" ++ q
  | none => u.path

/-- Adds a field to the query. -/
def withField (u : Url) (name value : String) : Url :=
  let field := formField name value
  { u with query := some (match u.query with
      | some q => if q = "" then field else q ++ "&" ++ field
      | none => field) }

/-- The authorization that the user named in a URL asks for. -/
def userAuthorization? (u : Url) : Option String :=
  if u.user = "" ∧ u.password = none then none
  else
    some ("Basic " ++ Text.base64 (percentDecoded u.user.toList ++ 58 :: percentDecoded (u.password.getD "").toList))

end Url

end AdmissionWatch.Http
