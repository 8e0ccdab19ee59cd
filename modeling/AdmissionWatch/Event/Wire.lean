import AdmissionWatch.Event
import AdmissionWatch.Json.Printer
import AdmissionWatch.Json.Record

/-!
# Events on the wire

The JSON form of an event. An empty time and a missing kind are left out of it; reading accepts what
writing produces.
-/

namespace AdmissionWatch

namespace Event

/-- The fields in their order, each with its value unless that is left out. -/
def fields (e : Event) : List (String × Option Json) :=
  [("event_version", some (.int e.version)), ("timestamp", some (.int e.timestamp)),
   ("event_time", if e.eventTime = "" then none else some (.str e.eventTime)),
   ("event_type", some (.str e.change.label)),
   ("resource_type", some (.str e.resourceType)), ("namespace", some (.str e.namespaceName)),
   ("name", some (.str e.name)), ("uid", some (.str e.uid)), ("data", some (.obj e.data)),
   ("metadata", some (.obj e.metadata)), ("event_source", some (.str e.source)), ("success", some (.bool e.success)),
   ("blocked", some (.bool e.blocked)), ("category", e.category.map fun c => .str c.label)]

/-- The JSON form. -/
def toJson (e : Event) : Json :=
  .object (Json.present e.fields)

/-- The text of the JSON form, with the members in the order of the fields. -/
def text (e : Event) : String :=
  Json.text (.obj (Json.present e.fields))

/-- The names of the fields in their order. -/
def fieldNames : List (List String) :=
  [["event_version"], ["timestamp"], ["event_time"], ["event_type"], ["resource_type"], ["namespace"], ["name"],
   ["uid"], ["data"], ["metadata"], ["event_source"], ["success"], ["blocked"], ["category"]]

open Json.Raw in
/-- Reads the JSON form. -/
def ofRaw? (raw : Json.Raw) : Option Event := do
  let found ← record? fieldNames raw
  let version ← field? found 0 (intIn? 0 0xFFFFFFFF)
  let timestamp ← field? found 1 int64?
  let eventTime ← fieldOr found 2 "" string?
  let change ← field? found 3 (word? ChangeKind.ofLabel?)
  let resourceType ← field? found 4 string?
  let namespaceName ← field? found 5 string?
  let name ← field? found 6 string?
  let uid ← field? found 7 string?
  let data ← fieldOr found 8 [] (fieldsAt? 1)
  let metadata ← fieldOr found 9 [] (fieldsAt? 1)
  let source ← fieldOr found 10 "" string?
  let success ← fieldOr found 11 false bool?
  let blocked ← fieldOr found 12 false bool?
  let category ← fieldOr found 13 none (nullable? (word? Category.ofLabel?))
  return { version := version.toNat, timestamp, eventTime, change, resourceType, namespaceName, name, uid, data,
           metadata, source, success, blocked, category }

/-- Reads the text of the JSON form. -/
def read? (text : String) : Option Event :=
  (Json.Raw.read? text.toList).bind ofRaw?

end Event

end AdmissionWatch
