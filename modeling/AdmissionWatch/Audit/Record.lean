import AdmissionWatch.Dict
import AdmissionWatch.Time.Instant

/-!
# Audit records

What the watcher uses of a Kubernetes audit record.
-/

namespace AdmissionWatch.Audit

/-- Who made the request. -/
structure User where
  username : String := ""
  uid : String := ""
  groups : List String := []
  deriving DecidableEq, Repr, Inhabited

/-- The object the request acted on. -/
structure ObjectRef where
  resource : String := ""
  namespaceName : String := ""
  name : String := ""
  uid : String := ""
  apiGroup : String := ""
  apiVersion : String := ""
  resourceVersion : String := ""
  subresource : String := ""
  deriving DecidableEq, Repr, Inhabited

/-- How the API server answered. -/
structure Response where
  code : Int := 0
  status : String := ""
  message : String := ""
  reason : String := ""
  deriving DecidableEq, Repr, Inhabited

/-- One audit record. -/
structure Record where
  kind : String := ""
  apiVersion : String := ""
  level : String := ""
  auditId : String := ""
  stage : String := ""
  requestUri : String := ""
  verb : String := ""
  user : User := {}
  sourceIps : List String := []
  userAgent : String := ""
  objectRef : ObjectRef := {}
  response : Response := {}
  annotations : Dict String := []
  received : Option Time.Instant := none
  staged : Option Time.Instant := none
  deriving DecidableEq, Repr, Inhabited

/-- The annotation that holds the admission decision. -/
def decisionAnnotation : String := "authorization.k8s.io/decision"

/-- The annotation that holds the failures of policies in audit mode, as a JSON array. -/
def failureAnnotation : String := "validation.policy.admission.k8s.io/validation_failure"

/-- The code of the answer. -/
def Record.code (r : Record) : Int := r.response.code

/-- The message of the answer. -/
def Record.message (r : Record) : String := r.response.message

/-- An annotation. -/
def Record.annotation? (r : Record) (key : String) : Option String := r.annotations.get? key

end AdmissionWatch.Audit
