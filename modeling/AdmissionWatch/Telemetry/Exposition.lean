import AdmissionWatch.Dict
import AdmissionWatch.Telemetry.Update

/-!
# The exposition of metrics

Counters and gauges as text, the way a scraper reads them: for each name that has been updated its
explanation, its kind, and a line for each set of labels. Measured times are not part of it.
-/

namespace AdmissionWatch.Telemetry

/-- The values of one name, by the text of the labels. -/
structure Family where
  instrument : Instrument
  values : Dict Nat
  deriving Repr

namespace Exposition

/-- The text of labels. -/
def labelsText (labels : List (String × String)) : String :=
  if labels.isEmpty then ""
  else "\x7b" ++ ",".intercalate (labels.map fun (k, v) => k ++ "=\"" ++ v ++ "\"") ++ "\x7d"

/-- Takes an update in. -/
def add (families : Dict Family) : Update → Dict Family
  | .counted name labels amount =>
    let family := (families.get? name).getD ⟨.counter, []⟩
    let key := labelsText labels
    let value := (family.values.get? key).getD 0 + amount
    families.insert name { family with values := family.values.insert key value }
  | .gauged name value => families.insert name ⟨.gauge, [("", value)]⟩
  | .timed _ _ | .described _ _ _ => families

/-- The explanation of a name, the latest given. -/
def explanation? (published : List Update) (name : String) : Option String :=
  published.findSome? fun
    | .described _ n text => if n = name then some text else none
    | _ => none

/-- The kind of a name. -/
def instrumentText : Instrument → String
  | .counter => "counter"
  | .gauge => "gauge"
  | .histogram => "histogram"

/-- The text of all that has been published, latest first. -/
def text (published : List Update) : String :=
  let families := published.foldr (fun u families => add families u) []
  String.join <| families.map fun (name, family) =>
    let help :=
      match explanation? published name with
      | some text => "# HELP " ++ name ++ " " ++ text ++ "\n"
      | none => ""
    let values := family.values.map fun (labels, value) => name ++ labels ++ " " ++ toString value ++ "\n"
    help ++ "# TYPE " ++ name ++ " " ++ instrumentText family.instrument ++ "\n" ++ String.join values ++ "\n"

end Exposition

end AdmissionWatch.Telemetry
