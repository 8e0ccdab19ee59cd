import AdmissionWatch.Json.Printer
import AdmissionWatch.Json.Record
import AdmissionWatch.Violation

/-!
# Payloads on the wire

The JSON form of a payload. An empty policy result and an empty time are left out of it; reading
accepts what writing produces.
-/

namespace AdmissionWatch.Violation

/-- The policy map as JSON. -/
def policiesJson (policies : PolicyMap) : Json :=
  .obj (policies.map fun (policy, rules) => (policy, .ofTexts rules))

/-- The fields in their order, each with its value unless that is left out. -/
def fields (v : Violation) : List (String × Option Json) :=
  [("eventType", some (.str v.change.label)), ("resourceType", some (.str v.resourceType)),
   ("namespace", some (.str v.namespaceName)), ("name", some (.str v.name)), ("uid", some (.str v.uid)),
   ("timestamp", some (.int v.timestamp)), ("data", some (.obj v.data)), ("metadata", some (.obj v.metadata)),
   ("policies", some (policiesJson v.policies)),
   ("policyResult", if v.policyResult = "" then none else some (.str v.policyResult)),
   ("message", some (.str v.message)), ("blocked", some (.bool v.blocked)), ("success", some (.bool v.success)),
   ("eventTime", if v.eventTime = "" then none else some (.str v.eventTime))]

/-- The JSON form. -/
def toJson (v : Violation) : Json :=
  .object (Json.present v.fields)

/-- The text of the JSON form, with the members in the order of the fields. -/
def text (v : Violation) : String :=
  Json.text (.obj (Json.present v.fields))

/-- The names of the fields in their order. -/
def fieldNames : List (List String) :=
  [["eventType"], ["resourceType"], ["namespace"], ["name"], ["uid"], ["timestamp"], ["data"], ["metadata"],
   ["policies"], ["policyResult"], ["message"], ["blocked"], ["success"], ["eventTime"]]

open Json.Raw in
/-- Reads the JSON form. -/
def ofRaw? (raw : Json.Raw) : Option Violation := do
  let found ← record? fieldNames raw
  let change ← field? found 0 (word? ChangeKind.ofLabel?)
  let resourceType ← field? found 1 string?
  let namespaceName ← field? found 2 string?
  let name ← field? found 3 string?
  let uid ← field? found 4 string?
  let timestamp ← field? found 5 int64?
  let data ← field? found 6 (fieldsAt? 1)
  let metadata ← field? found 7 (fieldsAt? 1)
  let policies ← field? found 8 (dictOf? (dictOf? string?))
  let policyResult ← fieldOr found 9 "" string?
  let message ← field? found 10 string?
  let blocked ← field? found 11 bool?
  let success ← field? found 12 bool?
  let eventTime ← fieldOr found 13 "" string?
  return { change, resourceType, namespaceName, name, uid, timestamp, data, metadata, policies, policyResult, message,
           blocked, success, eventTime }

/-- Reads the text of the JSON form. -/
def read? (text : String) : Option Violation :=
  (Json.Raw.read? text.toList).bind ofRaw?

end AdmissionWatch.Violation
