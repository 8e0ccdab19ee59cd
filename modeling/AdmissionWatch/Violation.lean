import AdmissionWatch.Event
import AdmissionWatch.Outcome

/-!
# Reported violations

The payload that is delivered for an event: its identity, data and metadata as they are, the
policies it names, and the outcome it reports.
-/

namespace AdmissionWatch

/-- For each policy its rules, and for each rule what it found. -/
abbrev PolicyMap := Dict (Dict String)

/-- The payload of one delivery. -/
structure Violation where
  change : ChangeKind := .added
  resourceType : String := ""
  namespaceName : String := ""
  name : String := ""
  uid : String := ""
  timestamp : Int := 0
  data : Fields := []
  metadata : Fields := []
  policies : PolicyMap := []
  policyResult : String := ""
  message : String := ""
  blocked : Bool := false
  success : Bool := false
  eventTime : String := ""
  deriving Repr, Inhabited, BEq

namespace Violation

/-- The payload for an event with these findings. -/
def ofEvent (e : Event) (policies : PolicyMap) (message policyResult : String) (outcome : Outcome) : Violation where
  change := e.change
  resourceType := e.resourceType
  namespaceName := e.namespaceName
  name := e.name
  uid := e.uid
  timestamp := e.timestamp
  data := e.data
  metadata := e.metadata
  policies := policies
  policyResult := policyResult
  message := message
  blocked := outcome.blocked
  success := outcome.success
  eventTime := e.eventTime

/-- The names of the policies, with commas between them. -/
def policyNames (v : Violation) : String :=
  ",".intercalate v.policies.keys

/-- A truth value as diagnostics write it. -/
def truthText (b : Bool) : String :=
  if b then "true" else "false"

/-- A readable text of the payload, several lines. -/
def rendered (v : Violation) : String :=
  let findings := v.policies.flatMap fun (policy, rules) =>
    rules.map fun (rule, detail) => s!"  {policy}/{rule}: {Text.trimmed detail}\n"
  "=== Policy Violation ===\n"
    ++ s!"Resource:  {v.resourceType} {v.namespaceName}/{v.name}\n"
    ++ s!"Event:     {v.change.label} at {v.eventTime}\n"
    ++ s!"Outcome:   blocked={truthText v.blocked} success={truthText v.success} policyResult={v.policyResult}\n"
    ++ s!"Policies:  {v.policyNames}\n"
    ++ String.join findings
    ++ s!"Message:   {Text.trimmed v.message}\n"

end Violation

end AdmissionWatch
