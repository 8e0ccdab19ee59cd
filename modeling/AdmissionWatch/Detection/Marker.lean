import AdmissionWatch.Text.Search

/-!
# Markers in messages

The fixed texts by which detection and extraction know a message. A marker is found wherever its
text occurs, whole words or not, so the text of one marker may lie within that of another.
-/

namespace AdmissionWatch.Detection

/-- A text that says something about the message it stands in. -/
inductive Marker where
  | kyverno
  | blockedDueToPolicies
  | validatingPolicy
  | namespacedValidatingPolicy
  | imageValidatingPolicy
  | validatingAdmissionPolicy
  | admissionWebhook
  | deniedTheRequest
  | deniedRequest
  deriving DecidableEq, Repr, Inhabited

namespace Marker

/-- Every marker. -/
def all : List Marker :=
  [kyverno, blockedDueToPolicies, validatingPolicy, namespacedValidatingPolicy, imageValidatingPolicy,
   validatingAdmissionPolicy, admissionWebhook, deniedTheRequest, deniedRequest]

/-- The text of a marker. -/
def text : Marker → String
  | kyverno => "kyverno"
  | blockedDueToPolicies => "blocked due to the following policies"
  | validatingPolicy => "vpol."
  | namespacedValidatingPolicy => "nvpol."
  | imageValidatingPolicy => "ivpol."
  | validatingAdmissionPolicy => "ValidatingAdmissionPolicy"
  | admissionWebhook => "admission webhook"
  | deniedTheRequest => "denied the request:"
  | deniedRequest => "denied request:"

/-- The marker in diagnostics. -/
def diagnostic : Marker → String
  | kyverno => "Kyverno"
  | blockedDueToPolicies => "BlockedDueToPolicies"
  | validatingPolicy => "ValidatingPolicy"
  | namespacedValidatingPolicy => "NamespacedValidatingPolicy"
  | imageValidatingPolicy => "ImageValidatingPolicy"
  | validatingAdmissionPolicy => "ValidatingAdmissionPolicy"
  | admissionWebhook => "AdmissionWebhook"
  | deniedTheRequest => "DeniedTheRequest"
  | deniedRequest => "DeniedRequest"

/-- The markers found in a message, in the order of `all`. -/
def scan (message : String) : List Marker :=
  all.filter fun m => Text.hasText m.text message

end Marker

/-- Whether all of `wanted` are among the markers found. -/
def hasAll (found wanted : List Marker) : Bool :=
  wanted.all fun m => found.contains m

end AdmissionWatch.Detection
