import AdmissionWatch.Audit.Target
import AdmissionWatch.Detection
import AdmissionWatch.Event
import AdmissionWatch.Outcome

/-!
# Events of audit records

The event for an audit record that was found to be a violation. A denial happened when it was
decided, a failure in audit mode when the request was received; where the record has neither time,
now.
-/

namespace AdmissionWatch

/-- What the API server did with the request, by the code of its answer. -/
def Audit.Record.action (r : Audit.Record) : String :=
  if Detection.denialCode ≤ r.code then "Blocked" else "Allowed"

namespace Event

/-- The object a violation of this kind is about. -/
def auditTarget (r : Audit.Record) (c : Category) : Audit.ObjectRef :=
  if c.isAuditOnly then r.objectRef else r.objectRef.named r.message

/-- The outcome of a violation of this kind and the policy result that stands for it. -/
def auditOutcome (c : Category) : Outcome × String :=
  if c.isAuditOnly then (.observed, "audit") else (.denied, "fail")

/-- When a violation of this kind happened. -/
def auditTime (now : Time.Instant) (r : Audit.Record) (c : Category) : Time.Instant :=
  let decided := r.staged.or r.received
  ((if c.isAuditOnly then r.received.or decided else decided)).getD now

/-- The event of an audit record, of this kind and from this source. -/
def ofAudit (now : Time.Instant) (r : Audit.Record) (c : Category) (source : String) : Event :=
  let target := auditTarget r c
  let (outcome, result) := auditOutcome c
  let time := auditTime now r c
  let first := (r.received.getD time).text
  let last := ((r.staged.or r.received).getD time).text
  { version := currentVersion
    timestamp := time.seconds
    eventTime := time.text
    change := .added
    resourceType := target.resource
    namespaceName := target.namespaceName
    name := s!"{c.stem}-{target.resource}-{target.name}-{r.auditId}"
    uid := r.auditId
    data := Dict.ofEntries
      [("reason", .str r.action),
       ("type", .str "Warning"),
       ("message", .str r.message),
       ("source", .object [("component", .str source)]),
       ("involvedObject", .object
         [("apiVersion", .str target.apiVersion), ("apiGroup", .str target.apiGroup), ("kind", .str target.resource),
          ("name", .str target.name), ("namespace", .str target.namespaceName), ("uid", .str r.auditId)]),
       ("firstTimestamp", .str first),
       ("lastTimestamp", .str last),
       ("count", .int 1),
       ("annotations", .obj (r.annotations.map fun (k, v) => (k, .str v))),
       ("user", .str r.user.username)]
    metadata := Dict.ofEntries
      [("audit_id", .str r.auditId), ("resource_name", .str target.name), ("namespace", .str target.namespaceName),
       ("action", .str r.action), ("status", .str r.response.status), ("message", .str r.message),
       ("policyResult", .str result), ("timestamp", .str last), ("event_time", .str time.text)]
    source := source
    success := outcome.success
    blocked := outcome.blocked
    category := some c }

end Event

end AdmissionWatch
