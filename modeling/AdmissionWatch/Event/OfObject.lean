import AdmissionWatch.Event
import AdmissionWatch.Failure
import AdmissionWatch.Outcome
import AdmissionWatch.Time.Reading

/-!
# Events of objects

The event for an object of the Kubernetes API, and the one for an event object in which a policy
engine reports a failure in audit mode. The latter is named after the object that failed, not after
the event object.
-/

namespace AdmissionWatch.Event

/-- The time an object gives, when the strict reader accepts it, else now. -/
def resolvedTime (now : Time.Instant) (given : Option String) : String :=
  match given with
  | some text => if (Time.readStrict? text).isSome then text else now.text
  | none => now.text

/-- The event for an object: its identity is in its metadata, from which the managed fields are
dropped. -/
def ofObject (now : Time.Instant) (change : ChangeKind) (object : Json) (resourceType : String) :
    Except Failure Event :=
  match object with
  | .obj fields =>
    match Dict.get? "metadata" fields with
    | none => .error .missingMetadata
    | some (.obj metadata) =>
      let metadata := Dict.erase "managedFields" metadata
      let text (key : String) : String := ((metadata.get? key).bind Json.str?).getD ""
      .ok
        { version := currentVersion
          timestamp := now.seconds
          eventTime := resolvedTime now ((Dict.get? "eventTime" fields).bind Json.str?)
          change := change
          resourceType := resourceType
          namespaceName := text "namespace"
          name := text "name"
          uid := text "uid"
          data := Dict.insert "metadata" (.obj metadata) fields
          metadata := metadata }
    | some _ => .error .invalidMetadataType
  | other => .error (.unsupportedObjectType other.typeName)

/-- The source of the events of policy reports. -/
def policyEventSource : String := "kubernetes_events"

/-- The event for an event object in which a policy engine reports a failure in audit mode. -/
def ofPolicyEvent (now : Time.Instant) (object : Json) : Except Failure Event := do
  let e ← ofObject now .added object "Event"
  let text (path : List String) : String := (Json.obj e.data).textAt path
  let policy := text ["involvedObject", "name"]
  let kind := text ["related", "kind"]
  let relatedName := text ["related", "name"]
  let whole (key : String) : Json := (e.data.get? key).getD .null
  let c := Category.auditOnlyClusterPolicy
  let metadata := e.metadata
    |>.insert "policyName" (.str policy)
    |>.insert "reason" (.str (text ["reason"]))
    |>.insert "message" (.str (text ["message"]))
    |>.insert "related" (whole "related")
    |>.insert "reportingInstance" (.str (text ["reportingInstance"]))
    |>.insert "source" (whole "source")
    |>.insert "type" (.str (text ["type"]))
    |>.insert "policyResult" (.str "pass")
  return { e with
    timestamp := ((Time.readStrict? e.eventTime).map Time.Instant.seconds).getD e.timestamp
    resourceType := kind
    namespaceName := text ["related", "namespace"]
    name := s!"{c.stem}-{kind}-{relatedName}-{e.uid}"
    uid := text ["related", "uid"]
    data := e.data.insert "policyName" (.str policy)
    metadata := metadata
    source := policyEventSource
    success := Outcome.allowed.success
    blocked := Outcome.allowed.blocked
    category := some c }

end AdmissionWatch.Event
