import AdmissionWatch.Category
import AdmissionWatch.Json.Value

/-!
# Watched events

The one form into which every source brings its records. The payload and the metadata stay JSON;
what the watcher itself needs is read from them by the accessors here.
-/

namespace AdmissionWatch

/-- What happened to the object. -/
inductive ChangeKind where
  | added
  | modified
  | deleted
  | error
  deriving DecidableEq, Repr, Inhabited

/-- The change as records write it. -/
def ChangeKind.label : ChangeKind → String
  | added => "ADDED"
  | modified => "MODIFIED"
  | deleted => "DELETED"
  | error => "ERROR"

/-- The change that a record writes as `s`. -/
def ChangeKind.ofLabel? (s : String) : Option ChangeKind :=
  [added, modified, deleted, error].find? fun k => k.label == s

/-- A record in the form that all sources produce. -/
structure Event where
  /-- Version of this form. -/
  version : Nat := 0
  /-- When the record was made or processed, in seconds since the epoch. -/
  timestamp : Int := 0
  /-- The time the source gives, in RFC 3339; empty when there is none. -/
  eventTime : String := ""
  change : ChangeKind := .added
  resourceType : String := ""
  namespaceName : String := ""
  name : String := ""
  uid : String := ""
  data : Fields := []
  metadata : Fields := []
  /-- The source that produced the event. -/
  source : String := ""
  success : Bool := false
  blocked : Bool := false
  /-- The kind of violation, set once when the record is recognised. -/
  category : Option Category := none
  deriving Repr, Inhabited, BEq

namespace Event

/-- The version of the form that this library produces. -/
def currentVersion : Nat := 1

/-- A string of the payload. -/
def dataText? (e : Event) (key : String) : Option String :=
  (e.data.get? key).bind Json.str?

/-- A string of the metadata. -/
def metadataText? (e : Event) (key : String) : Option String :=
  (e.metadata.get? key).bind Json.str?

/-- The message of the violation: the payload's, else the metadata's, when it is not empty. -/
def message? (e : Event) : Option String :=
  ((e.dataText? "message").or (e.metadataText? "message")).filter (· != "")

/-- What the metadata says about the result of the policy. -/
def policyResult? (e : Event) : Option Json :=
  e.metadata.get? "policyResult"

/-- The annotations of the payload, when they are a map. -/
def annotations? (e : Event) : Option Fields :=
  (e.data.get? "annotations").bind Json.obj?

/-- The kind of violation: the one set on the event, else the one its name begins with. -/
def category? (e : Event) : Option Category :=
  e.category.or (Category.ofName? e.name)

end Event

end AdmissionWatch
