import AdmissionWatch.Text.Search

/-!
# Kinds of violation

A closed set of seven kinds. A kind has a stem, with which the names of its events begin, and a
label, by which it is written in records. An event name gives its kind back: `Category.ofName?` is
the kind whose stem is the whole name or is followed by a hyphen.
-/

namespace AdmissionWatch

/-- What kind of policy was violated, and whether the request was let through. -/
inductive Category where
  /-- Denial by a cluster-wide or namespaced policy of the Kyverno engine. -/
  | kyverno
  /-- Denial by a validating policy of that engine. -/
  | validatingPolicy
  /-- Denial by a namespaced validating policy of that engine. -/
  | namespacedValidatingPolicy
  /-- Denial by an image validating policy of that engine. -/
  | imageValidatingPolicy
  /-- Denial by a policy that the API server itself evaluates. -/
  | validatingAdmissionPolicy
  /-- Failure of such a policy in audit mode; the request was allowed. -/
  | auditOnlyValidatingAdmissionPolicy
  /-- Failure of a cluster-wide or namespaced policy in audit mode, reported as an event object. -/
  | auditOnlyClusterPolicy
  deriving DecidableEq, Repr, Inhabited

namespace Category

/-- Every kind, in the order in which detection tries them. -/
def all : List Category :=
  [kyverno, validatingPolicy, namespacedValidatingPolicy, imageValidatingPolicy, validatingAdmissionPolicy,
   auditOnlyValidatingAdmissionPolicy, auditOnlyClusterPolicy]

/-- The text with which the names of this kind's events begin. -/
def stem : Category → String
  | kyverno => "kyverno-policy-violation"
  | validatingPolicy => "vpol-violation"
  | namespacedValidatingPolicy => "nvpol-violation"
  | imageValidatingPolicy => "ivpol-violation"
  | validatingAdmissionPolicy => "vap-violation"
  | auditOnlyValidatingAdmissionPolicy => "audit-only-vap"
  | auditOnlyClusterPolicy => "audit-only-cp"

/-- The kind as records write it. -/
def label : Category → String
  | kyverno => "kyverno"
  | validatingPolicy => "validating-policy"
  | namespacedValidatingPolicy => "namespaced-validating-policy"
  | imageValidatingPolicy => "image-validating-policy"
  | validatingAdmissionPolicy => "validating-admission-policy"
  | auditOnlyValidatingAdmissionPolicy => "audit-only-validating-admission-policy"
  | auditOnlyClusterPolicy => "audit-only-cluster-policy"

/-- The kind in diagnostics. -/
def diagnostic : Category → String
  | kyverno => "Kyverno"
  | validatingPolicy => "ValidatingPolicy"
  | namespacedValidatingPolicy => "NamespacedValidatingPolicy"
  | imageValidatingPolicy => "ImageValidatingPolicy"
  | validatingAdmissionPolicy => "ValidatingAdmissionPolicy"
  | auditOnlyValidatingAdmissionPolicy => "AuditOnlyValidatingAdmissionPolicy"
  | auditOnlyClusterPolicy => "AuditOnlyClusterPolicy"

/-- The kind that a record writes as `s`. -/
def ofLabel? (s : String) : Option Category :=
  all.find? fun c => c.label == s

/-- Whether this kind reports requests that were let through. -/
def isAuditOnly : Category → Bool
  | auditOnlyValidatingAdmissionPolicy | auditOnlyClusterPolicy => true
  | _ => false

/-- Whether an event name begins with this kind's stem, as a whole or up to a hyphen. -/
def names (c : Category) (name : List Char) : Bool :=
  match Text.dropStart? c.stem.toList name with
  | none => false
  | some [] => true
  | some (d :: _) => d = '-'

/-- The kind that an event name begins with. -/
def ofName? (name : String) : Option Category :=
  all.find? fun c => c.names name.toList

/-- The place of a kind in `all`. -/
def position (c : Category) : Nat :=
  all.idxOf c

end Category

end AdmissionWatch
