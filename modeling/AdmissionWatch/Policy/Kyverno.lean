import AdmissionWatch.Policy.Extraction
import AdmissionWatch.Yaml.Printer

/-!
# Policies in denials by the Kyverno engine

Such a denial lists its policies after a phrase, as a YAML mapping from policies to their rules and
from rules to what they found.
-/

namespace AdmissionWatch.Policy

/-- The phrase before the policies of a denial. -/
def policiesPhrase : String := "due to the following policies"

/-- A value as the detail of a rule: scalars are their own text. -/
def detailText (v : Yaml.Value) : String :=
  v.scalarText?.getD (Text.trimmed v.text)

/-- The rules of a policy; a value that is no mapping is the detail of one rule named as the policy.
Entries whose keys are not scalars do not count. -/
def rulesOf (policy : String) : Yaml.Value → Dict String
  | .map entries => Dict.ofEntries (entries.filterMap fun (rule, detail) =>
      rule.scalarText?.map fun rule => (rule, detailText detail))
  | v => [(policy, detailText v)]

/-- The policies of a block of policies; none when it is not a mapping. -/
def ofBlock (block : String) : PolicyMap :=
  match Yaml.Value.read? block with
  | some (.map entries) => Dict.ofEntries (entries.filterMap fun (policy, rules) =>
      policy.scalarText?.map fun policy => (policy, rulesOf policy rules))
  | _ => []

/-- The policies of a denial `admission webhook … denied the request: … due to the following
policies <block>`. -/
def kyverno (message : String) : PolicyMap :=
  if Detection.hasAll (Detection.Marker.scan message) [.admissionWebhook, .deniedTheRequest] then
    match Text.cut? policiesPhrase message with
    | some (_, block) => if Text.isBlankText block then [] else ofBlock block
    | none => []
  else []

end AdmissionWatch.Policy
