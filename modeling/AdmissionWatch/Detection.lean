import AdmissionWatch.Audit.Record
import AdmissionWatch.Category
import AdmissionWatch.Detection.Marker
import AdmissionWatch.Json.Value

/-!
# Detecting violations

Whether a source record is a violation, and of which kind. A denial is known by the code of the
answer and the markers in its message, a failure in audit mode by the annotations of an allowed
request, and a policy event by its fields.
-/

namespace AdmissionWatch.Detection

open Marker in
/-- The kind of a denied request, by the markers in its message; the first that fits counts. -/
def denialKind? (found : List Marker) : Option Category :=
  if hasAll found [kyverno, blockedDueToPolicies] then some .kyverno
  else if hasAll found [validatingPolicy, kyverno] && !found.contains imageValidatingPolicy
      && !found.contains namespacedValidatingPolicy then some .validatingPolicy
  else if hasAll found [namespacedValidatingPolicy, kyverno] then some .namespacedValidatingPolicy
  else if hasAll found [imageValidatingPolicy, kyverno] then some .imageValidatingPolicy
  else if found.contains validatingAdmissionPolicy then some .validatingAdmissionPolicy
  else none

/-- The least code of an answer that refuses a request. -/
def denialCode : Int := 400

/-- The kind of violation for which a request was denied. -/
def denial? (code : Int) (message : String) : Option Category :=
  if code < denialCode then none else denialKind? (Marker.scan message)

/-- Whether the annotations tell of an allowed request that failed a policy in audit mode. -/
def isAuditOnlyAllow (decision failure : Option String) : Bool :=
  decision == some "allow" && failure.any (· != "")

/-- The kind of violation that an audit record tells of. A denial comes first. -/
def audit? (r : Audit.Record) : Option Category :=
  match denial? r.code r.message with
  | some c => some c
  | none =>
    if isAuditOnlyAllow (r.annotation? Audit.decisionAnnotation) (r.annotation? Audit.failureAnnotation) then
      some .auditOnlyValidatingAdmissionPolicy
    else none

/-- Whether an event object tells of a policy that failed in audit mode. -/
def isAuditOnlyPolicyEvent (event : Json) : Bool :=
  let kind := event.textAt ["involvedObject", "kind"]
  (kind == "ClusterPolicy" || kind == "Policy")
    && event.textAt ["reason"] == "PolicyViolation"
    && event.textAt ["action"] == "Resource Passed"

/-- What policy events are selected by when they are listed. -/
def policyEventSelector : String := "reason=PolicyViolation"

end AdmissionWatch.Detection
