import AdmissionWatch.Audit.Record
import AdmissionWatch.Failure
import AdmissionWatch.Json.Printer
import AdmissionWatch.Json.Record
import AdmissionWatch.Time.Reading

/-!
# Audit records on the wire

The JSON form of audit records. Every field may be absent and has then its empty value; fields that
are not part of `Record` are ignored. Times are read in the relaxed way and written with the
fraction they have.
-/

namespace AdmissionWatch.Audit

open Json.Raw

/-- The names of the fields of the user in their order. -/
def User.fieldNames : List (List String) :=
  [["username"], ["uid"], ["groups"]]

/-- Reads the user. -/
def User.ofRaw? (raw : Json.Raw) : Option User := do
  let found ← record? fieldNames raw
  let username ← fieldOr found 0 "" string?
  let uid ← fieldOr found 1 "" string?
  let groups ← fieldOr found 2 [] (listOf? string?)
  return { username, uid, groups }

/-- The names of the fields of the reference in their order. -/
def ObjectRef.fieldNames : List (List String) :=
  [["resource"], ["namespace"], ["name"], ["uid"], ["apiGroup"], ["apiVersion"], ["resourceVersion"], ["subresource"]]

/-- Reads the reference to the object. -/
def ObjectRef.ofRaw? (raw : Json.Raw) : Option ObjectRef := do
  let found ← record? fieldNames raw
  let resource ← fieldOr found 0 "" string?
  let namespaceName ← fieldOr found 1 "" string?
  let name ← fieldOr found 2 "" string?
  let uid ← fieldOr found 3 "" string?
  let apiGroup ← fieldOr found 4 "" string?
  let apiVersion ← fieldOr found 5 "" string?
  let resourceVersion ← fieldOr found 6 "" string?
  let subresource ← fieldOr found 7 "" string?
  return { resource, namespaceName, name, uid, apiGroup, apiVersion, resourceVersion, subresource }

/-- The names of the fields of the answer in their order. -/
def Response.fieldNames : List (List String) :=
  [["code"], ["status"], ["message"], ["reason"]]

/-- Reads the answer. -/
def Response.ofRaw? (raw : Json.Raw) : Option Response := do
  let found ← record? fieldNames raw
  let code ← fieldOr found 0 0 int32?
  let status ← fieldOr found 1 "" string?
  let message ← fieldOr found 2 "" string?
  let reason ← fieldOr found 3 "" string?
  return { code, status, message, reason }

/-- Reads a time. -/
def instant? (raw : Json.Raw) : Option Time.Instant :=
  (string? raw).bind Time.readRelaxed?

/-- The names of the fields of a record in their order. -/
def Record.fieldNames : List (List String) :=
  [["kind"], ["apiVersion"], ["level"], ["auditID"], ["stage"], ["requestURI"], ["verb"], ["user"], ["sourceIPs"],
   ["userAgent"], ["objectRef"], ["responseStatus"], ["annotations"], ["requestReceivedTimestamp"],
   ["stageTimestamp"]]

/-- Reads a record. -/
def Record.ofRaw? (raw : Json.Raw) : Option Record := do
  let found ← record? fieldNames raw
  let kind ← fieldOr found 0 "" string?
  let apiVersion ← fieldOr found 1 "" string?
  let level ← fieldOr found 2 "" string?
  let auditId ← fieldOr found 3 "" string?
  let stage ← fieldOr found 4 "" string?
  let requestUri ← fieldOr found 5 "" string?
  let verb ← fieldOr found 6 "" string?
  let user ← fieldOr found 7 {} User.ofRaw?
  let sourceIps ← fieldOr found 8 [] (listOf? string?)
  let userAgent ← fieldOr found 9 "" string?
  let objectRef ← fieldOr found 10 {} ObjectRef.ofRaw?
  let response ← fieldOr found 11 {} Response.ofRaw?
  let annotations ← fieldOr found 12 [] (dictOf? string?)
  let received ← fieldOr found 13 none (nullable? instant?)
  let staged ← fieldOr found 14 none (nullable? instant?)
  return { kind, apiVersion, level, auditId, stage, requestUri, verb, user, sourceIps, userAgent, objectRef, response,
           annotations, received, staged }

/-- Reads one line of an audit log. -/
def Record.read (line : String) : Except Failure Record :=
  match (Json.Raw.read? line.toList).bind ofRaw? with
  | some record => .ok record
  | none => .error (.parse "invalid audit event: not an audit record")

/-- The JSON form of a time. -/
def instantJson : Option Time.Instant → Json
  | some t => .str t.preciseText
  | none => .null

/-- The fields of the user in their order. -/
def User.fields (u : User) : List (String × Option Json) :=
  [("username", some (.str u.username)), ("uid", some (.str u.uid)), ("groups", some (.arr (u.groups.map .str)))]

/-- The fields of the reference in their order. -/
def ObjectRef.fields (o : ObjectRef) : List (String × Option Json) :=
  [("resource", some (.str o.resource)), ("namespace", some (.str o.namespaceName)), ("name", some (.str o.name)),
   ("uid", some (.str o.uid)), ("apiGroup", some (.str o.apiGroup)), ("apiVersion", some (.str o.apiVersion)),
   ("resourceVersion", some (.str o.resourceVersion)), ("subresource", some (.str o.subresource))]

/-- The JSON form of the reference. -/
def ObjectRef.toJson (o : ObjectRef) : Json :=
  .object (Json.present o.fields)

/-- The fields of the answer in their order. -/
def Response.fields (r : Response) : List (String × Option Json) :=
  [("code", some (.int r.code)), ("status", some (.str r.status)), ("message", some (.str r.message)),
   ("reason", some (.str r.reason))]

/-- The fields of a record in their order, the objects among them made of their members by `build`. -/
def Record.fields (build : List (String × Json) → Json) (r : Record) : List (String × Option Json) :=
  [("kind", some (.str r.kind)), ("apiVersion", some (.str r.apiVersion)), ("level", some (.str r.level)),
   ("auditID", some (.str r.auditId)), ("stage", some (.str r.stage)), ("requestURI", some (.str r.requestUri)),
   ("verb", some (.str r.verb)), ("user", some (build (Json.present r.user.fields))),
   ("sourceIPs", some (.arr (r.sourceIps.map .str))), ("userAgent", some (.str r.userAgent)),
   ("objectRef", some (build (Json.present r.objectRef.fields))),
   ("responseStatus", some (build (Json.present r.response.fields))),
   ("annotations", some (.ofTexts r.annotations)),
   ("requestReceivedTimestamp", some (instantJson r.received)), ("stageTimestamp", some (instantJson r.staged))]

/-- The JSON form of a record. -/
def Record.toJson (r : Record) : Json :=
  .object (Json.present (r.fields .object))

/-- The text of the JSON form of a record, with the members of its objects in the order of the fields. -/
def Record.text (r : Record) : String :=
  Json.text (.obj (Json.present (r.fields .obj)))

end AdmissionWatch.Audit
