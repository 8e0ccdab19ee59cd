import AdmissionWatch.Json.Record
import AdmissionWatch.Json.Value
import AdmissionWatch.LogGroup.Call

/-!
# Calls on the wire

The JSON forms of calls and of what the service answers. In an answer every field may be absent, and
what is not known is ignored.
-/

namespace AdmissionWatch.LogGroup

open Json.Raw

namespace Call

/-- The body of the request. -/
def body : Call → Json
  | groups start limit => .object [("logGroupNamePrefix", .str start), ("limit", .int limit)]
  | streams group limit =>
    .object [("logGroupName", .str group), ("orderBy", .str "LastEventTime"), ("descending", .bool true),
      ("limit", .int limit)]
  | entries group stream since limit =>
    .object [("logGroupName", .str group), ("logStreamName", .str stream), ("startTime", .int since),
      ("startFromHead", .bool true), ("limit", .int limit)]
  | matching group pattern since limit =>
    .object [("logGroupName", .str group), ("filterPattern", .str pattern), ("startTime", .int since),
      ("limit", .int limit)]

/-- The field of an answer that holds the list. -/
def listName : Call → String
  | groups .. => "logGroups"
  | streams .. => "logStreams"
  | entries .. | matching .. => "events"

end Call

/-- Reads the name of a log group. -/
def groupName? (raw : Json.Raw) : Option String := do
  let found ← record? [["logGroupName"]] raw
  fieldOr found 0 "" string?

/-- Reads a log stream. -/
def Stream.ofRaw? (raw : Json.Raw) : Option Stream := do
  let found ← record? [["logStreamName"], ["lastEventTimestamp"], ["lastIngestionTime"]] raw
  let name ← fieldOr found 0 "" string?
  let lastEntry ← fieldOr found 1 none (nullable? int64?)
  let lastIngestion ← fieldOr found 2 none (nullable? int64?)
  return { name, lastEntry, lastIngestion }

/-- Reads an entry. -/
def Entry.ofRaw? (raw : Json.Raw) : Option Entry := do
  let found ← record? [["timestamp"], ["ingestionTime"], ["logStreamName"], ["message"]] raw
  let time ← fieldOr found 0 none (nullable? int64?)
  let ingestion ← fieldOr found 1 none (nullable? int64?)
  let stream ← fieldOr found 2 none (nullable? string?)
  let message ← fieldOr found 3 "" string?
  return { time, ingestion, stream, message }

/-- Reads an item of the list that answers a call. -/
def Call.item? : (c : Call) → Json.Raw → Option c.Item
  | .groups .. => groupName?
  | .streams .. => Stream.ofRaw?
  | .entries .. | .matching .. => Entry.ofRaw?

/-- Reads the list that answers a call. -/
def Call.items? (c : Call) (raw : Json.Raw) : Option (List c.Item) := do
  let found ← record? [[c.listName]] raw
  fieldOr found 0 [] (listOf? c.item?)

/-- What the service says about a call that failed. -/
structure Refusal where
  /-- What kind of failure it is, with the space of names it is from before a `#`. -/
  kind : String := ""
  message : String := ""
  deriving DecidableEq, Repr, Inhabited

/-- Reads what the service says about a failure. -/
def Refusal.ofRaw? (raw : Json.Raw) : Option Refusal := do
  let found ← record? [["__type"], ["message", "Message"]] raw
  let kind ← fieldOr found 0 "" string?
  let message ← fieldOr found 1 "" string?
  return { kind, message }

end AdmissionWatch.LogGroup
