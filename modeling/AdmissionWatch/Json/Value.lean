import AdmissionWatch.Dict

/-!
# JSON values

The members of an object are a map, so two objects with the same members are equal whatever the
order in which they were written.
-/

namespace AdmissionWatch

/-- A JSON number: an integer of at most 64 bits, signed or not, or a double, kept by its bits so
that equality is decidable. -/
inductive Number where
  | int (value : Int)
  | double (bits : UInt64)
  deriving DecidableEq, Repr, Inhabited

/-- A JSON value. -/
inductive Json where
  | null
  | bool (value : Bool)
  | num (value : Number)
  | str (value : String)
  | arr (items : List Json)
  | obj (members : List (String × Json))
  deriving Repr, Inhabited, BEq

/-- The members of an object. -/
abbrev Fields := Dict Json

namespace Json

/-- The string that a value is. -/
def str? : Json → Option String
  | str s => some s
  | _ => none

/-- The members of the object that a value is. -/
def obj? : Json → Option Fields
  | obj fields => some fields
  | _ => none

/-- The member of an object; none for any other value. -/
def member? (key : String) : Json → Option Json
  | obj fields => Dict.get? key fields
  | _ => none

/-- The value at a path of keys. -/
def at? : List String → Json → Option Json
  | [], v => some v
  | key :: path, v => (v.member? key).bind (at? path)

/-- The string at a path of keys, empty when there is none. -/
def textAt (path : List String) (v : Json) : String :=
  ((v.at? path).bind str?).getD ""

/-- The object with these members. -/
def object (members : List (String × Json)) : Json :=
  obj (Dict.ofEntries members)

/-- The members for the fields of a record in their order; a field without a value is left out. -/
def present (fields : List (String × Option Json)) : List (String × Json) :=
  fields.filterMap fun (name, value?) => value?.map fun value => (name, value)

/-- The object that has these texts. -/
def ofTexts (texts : Dict String) : Json :=
  obj (texts.map fun (key, text) => (key, str text))

/-- An integer. -/
def int (n : Int) : Json :=
  num (.int n)

/-- What kind of value this is. -/
def typeName : Json → String
  | null => "null"
  | bool _ => "bool"
  | num _ => "number"
  | str _ => "string"
  | arr _ => "array"
  | obj _ => "object"

end Json

end AdmissionWatch
