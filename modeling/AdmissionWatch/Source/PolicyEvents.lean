import AdmissionWatch.Detection
import AdmissionWatch.Event.OfObject
import AdmissionWatch.Source.AuditLog

/-!
# Policy events

The event objects of the Kubernetes API in which a policy engine reports failures in audit mode.
Each poll lists them all; the version under which each was last met tells whether it is news.
-/

namespace AdmissionWatch.Source.PolicyEvents

open Time

/-- The name of this source. -/
def sourceName : String := "kubernetes"

/-- For each event object, by its uid, the version under which it was last met. -/
abbrev Versions := Dict String

/-- The uid of an event object. -/
def uid (object : Json) : String := object.textAt ["metadata", "uid"]

/-- The version of an event object. -/
def version (object : Json) : String := object.textAt ["metadata", "resourceVersion"]

/-- The identifier under which an event object is submitted: of what it reports on, namespace, name
and kind, and its own uid. -/
def key (object : Json) : String :=
  let involved (field : String) : String := object.textAt ["involvedObject", field]
  "-".intercalate [involved "namespace", involved "name", involved "kind", uid object]

/-- The versions without those of objects that are not listed any more. -/
def retain (listed : List Json) (versions : Versions) : Versions :=
  versions.filter fun v => listed.any fun object => uid object == v.1

/-- A pass with the versions met so far. -/
structure Poll extends Pass where
  versions : Versions

/-- Looks at one object of a list. -/
def Poll.look (now : Clock) (p : Poll) (object : Json) : Poll :=
  let p := { p with tally := p.tally.addRecord }
  if !Detection.isAuditOnlyPolicyEvent object then p
  else if p.versions.get? (uid object) = some (version object) then
    { p with tally := { p.tally with duplicates := p.tally.duplicates + 1 } }
  else
    let p := { p with versions := p.versions.insert (uid object) (version object) }
    match Event.ofPolicyEvent now.date object with
    | .ok e =>
      let (outcome, intake) := p.intake.submit (key object) e now.moment
      { p with tally := p.tally.count outcome, intake }
    | .error _ => { p with tally := p.tally.addMalformed }

/-- Looks at a list of objects, at all of them at one reading of the clock. Where each object is to have
its own, this is an errand, which is told the time at each step. -/
def poll (now : Clock) (intake : Intake) (versions : Versions) (listed : List Json) : Poll :=
  listed.foldl (Poll.look now) { intake, versions := retain listed versions }

/-- One poll, by what came of asking for the list. Without a list there is nothing to look at, and
the versions stay. -/
def attempt (now : Clock) (intake : Intake) (versions : Versions) : Except Failure (List Json) → Poll
  | .ok listed => poll now intake versions listed
  | .error _ => { intake, versions }

end AdmissionWatch.Source.PolicyEvents
