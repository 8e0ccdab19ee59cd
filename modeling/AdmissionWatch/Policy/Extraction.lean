import AdmissionWatch.Detection.Marker
import AdmissionWatch.Json.Record
import AdmissionWatch.Violation

/-!
# Policies in messages

Which policies a message implicates. Every extractor answers for every text: one that it does not
understand implicates the policy `unknown` or none.
-/

namespace AdmissionWatch.Policy

/-- The name of a policy that a message does not tell. -/
def unknownName : String := "unknown"

/-- One policy with one rule of the same name. -/
def single (name detail : String) : PolicyMap :=
  [(name, [(name, detail)])]

/-- Where the name of a policy starts in a denial. -/
def namePhrase : String := "denied the request: Policy"

/-- The policy of a denial `… denied the request: Policy <name> failed: …`. -/
def validating (message : String) : PolicyMap :=
  single ((Text.between? namePhrase " failed:" message).getD unknownName) message

/-- The policy of a denial `… denied the request: Policy <name> error: …`. -/
def imageValidating (message : String) : PolicyMap :=
  single ((Text.between? namePhrase " error:" message).getD unknownName) message

/-- The policy of a denial `… ValidatingAdmissionPolicy '<name>' with binding '<binding>' denied
request: …`; none in a message of another form. -/
def validatingAdmission (message : String) : PolicyMap :=
  if Detection.hasAll (Detection.Marker.scan message) [.validatingAdmissionPolicy, .deniedRequest] then
    let found := Text.between? Detection.Marker.validatingAdmissionPolicy.text " with binding " message
    let name := Text.trimmed (Text.without '\'' (found.getD unknownName))
    single (if name = "" then unknownName else name) message
  else []

/-- The policy that a failure record names, empty when it names none. -/
def failureName? (raw : Json.Raw) : Option String := do
  let found ← raw.record? [["policy"]]
  Json.Raw.fieldOr found 0 "" Json.Raw.string?

/-- The name that follows the first `"policy":` up to a comma, without quotes. -/
def scannedName (text : String) : String :=
  match Text.cut? "\"policy\":" text with
  | none => unknownName
  | some (_, rest) =>
    let piece := String.ofList (rest.toList.takeWhile (· != ','))
    let name := Text.trimmed (Text.without '"' piece)
    if name = "" then unknownName else name

/-- The policies of a failure annotation, a JSON array of failure records. A text that is not such
an array is searched for the first policy it names. -/
def auditFailures (text : String) : PolicyMap :=
  match (Json.Raw.read? text.toList).bind (Json.Raw.listOf? failureName?) with
  | some names =>
    match names.filter (· != "") with
    | [] => single unknownName text
    | names => Dict.ofEntries (names.map fun n => (n, [(n, text)]))
  | none => single (scannedName text) text

/-- The policy of an event object, with the rule that the message gives in brackets, else a rule
named as the policy. -/
def auditEvent (policy message : String) : PolicyMap :=
  [(policy, [((Text.between? "[" "]" message).getD policy, message)])]

end AdmissionWatch.Policy
