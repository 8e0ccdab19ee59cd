import AdmissionWatch.Json.Value

/-!
# Outcomes

How an admission decision is reported. The `policyResult` of an event decides it: `fail` is a
blocked request, `pass` an allowed one, and any other text was only observed. Where there is no such
text the request counts as blocked.
-/

namespace AdmissionWatch

/-- Whether a request was blocked, and whether it passed the policy. -/
structure Outcome where
  blocked : Bool
  success : Bool
  deriving DecidableEq, Repr, Inhabited

namespace Outcome

/-- The request was refused. -/
def denied : Outcome := ⟨true, false⟩

/-- The request was let through. -/
def allowed : Outcome := ⟨false, true⟩

/-- The request was only looked at. -/
def observed : Outcome := ⟨false, false⟩

/-- The outcome that a policy result stands for, and the result reported with it. -/
def ofPolicyResult : Option Json → Outcome × String
  | some (.str "fail") => (denied, "fail")
  | some (.str "pass") => (allowed, "pass")
  | some (.str other) => (observed, other)
  | _ => (denied, "fail")

end Outcome

end AdmissionWatch
