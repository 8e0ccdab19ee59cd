import AdmissionWatch.Audit.Record
import AdmissionWatch.Event
import AdmissionWatch.Failure
import AdmissionWatch.Policy.Kyverno

/-!
# Verdicts

What an event of a known kind says: the policies it implicates and the message that is reported with
them. A verdict without policies is a miss, which is not a failure.
-/

namespace AdmissionWatch

/-- The findings of one event. -/
structure Verdict where
  policies : PolicyMap
  message : String
  deriving Repr, Inhabited, BEq

namespace Verdict

/-- Whether no policy was recognised. -/
def isMiss (v : Verdict) : Bool :=
  v.policies.isEmpty

/-- The message of an event, which has to be there. -/
def requiredMessage (e : Event) : Except Failure String :=
  match e.message? with
  | some message => .ok message
  | none => .error (.missingField "no message field in event or message is empty")

/-- The verdict that an extractor reaches on the message. -/
def ofMessage (extract : String → PolicyMap) (e : Event) : Except Failure Verdict := do
  let message ← requiredMessage e
  return ⟨extract message, message⟩

/-- What is reported of an event whose annotations are not a map. -/
def noAnnotations : String := "no annotations field in event or annotations is not a map"

/-- The verdict on a failure in audit mode that the annotations report. -/
def ofAnnotation (e : Event) : Except Failure Verdict :=
  match e.data.get? "annotations" with
  | none => .error (.missingField noAnnotations)
  | some (.obj annotations) =>
    match ((Dict.get? Audit.failureAnnotation annotations).bind Json.str?).filter (· != "") with
    | some failure => .ok ⟨Policy.auditFailures failure, failure⟩
    | none => .error (.missingField Audit.failureAnnotation)
  | some _ => .error (.invalidFieldType noAnnotations)

/-- The verdict on a policy event, whose policy is named by a field of its own. -/
def ofPolicyEvent (e : Event) : Except Failure Verdict := do
  let message ← requiredMessage e
  match ((e.dataText? "policyName").or (e.metadataText? "policyName")).filter (· != "") with
  | some policy => return ⟨Policy.auditEvent policy message, message⟩
  | none => throw (.missingField "policyName")

/-- The verdict on an event of a kind. -/
def ofEvent : Category → Event → Except Failure Verdict
  | .kyverno => ofMessage Policy.kyverno
  | .validatingPolicy | .namespacedValidatingPolicy => ofMessage Policy.validating
  | .imageValidatingPolicy => ofMessage Policy.imageValidating
  | .validatingAdmissionPolicy => ofMessage Policy.validatingAdmission
  | .auditOnlyValidatingAdmissionPolicy => ofAnnotation
  | .auditOnlyClusterPolicy => ofPolicyEvent

end Verdict

end AdmissionWatch
