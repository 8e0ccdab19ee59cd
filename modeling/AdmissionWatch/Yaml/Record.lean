import AdmissionWatch.Yaml.Node
import AdmissionWatch.Yaml.Plain

/-!
# Reading records from documents

A record is read from a mapping, whose entries come in any order, are known by name and may be
followed by others that are ignored; or from a scalar that is not written at all, which has none. A
field that stands twice is refused. Aliases stand for the nodes they refer to.
-/

namespace AdmissionWatch.Yaml

/-- What reads a value from a node, given the nodes that aliases refer to. -/
abbrev Reading (α : Type) := List (Nat × Node) → Node → Option α

namespace Reading

variable {α : Type}

/-- Reads the node that an alias refers to in its stead. -/
def through (read? : Reading α) : Reading α
  | targets, .alias id => (Node.find? targets id).bind (read? targets)
  | targets, node => read? targets node

/-- The text of a scalar, in whatever style it is written. -/
def text? : Reading String :=
  through fun _ node =>
    match node with
    | .scalar _ _ text _ => some (String.ofList text)
    | _ => none

/-- Whether a scalar may be something else than a string: it is plain, or a literal block with the
tag of what it may be. -/
def isBare (style : Style) (tag : Option (List Char)) (kind : String) : Bool :=
  style = .plain || (style = .literal && tag == some (Node.corePrefix ++ kind.toList))

/-- A truth value. -/
def bool? : Reading Bool :=
  through fun _ node =>
    match node with
    | .scalar _ tag text style => if isBare style tag "bool" then Plain.bool? text else none
    | _ => none

/-- A natural number up to a largest one. -/
def natural? (most : Nat) : Reading Nat :=
  through fun _ node =>
    match node with
    | .scalar _ tag text style => if isBare style tag "int" then (Plain.natural? text).filter (· ≤ most) else none
    | _ => none

/-- Whether a plain scalar stands for nothing. -/
def isNothing (text : List Char) : Bool := text = [] || Plain.isNull text

/-- The tag of null. -/
def nullTag : List Char := Node.corePrefix ++ "null".toList

/-- What a node is to a value that may be absent. -/
inductive Presence where
  | absent
  | present
  | wrong

/-- Whether a node that is no alias holds a value: a plain scalar without a tag does not if it
stands for nothing, and one with the tag of null has to be one of its words and does not. -/
def presence : Node → Presence
  | .scalar _ tag text .plain =>
    match tag with
    | none => if isNothing text then .absent else .present
    | some tag => if tag ≠ nullTag then .present else if Plain.isNull text then .absent else .wrong
  | _ => .present

/-- A value, or nothing. -/
def optional? (read? : Reading α) : Reading (Option α) :=
  through fun targets node =>
    match presence node with
    | .absent => some none
    | .present => (read? targets node).map some
    | .wrong => none

/-- The tag of the document's own on a scalar. -/
def ownName? : Option (List Char) → Option String
  | some ('!' :: name) => some (String.ofList (if name = [] then ['!'] else name))
  | _ => none

/-- One of a set of words, as a scalar or as the tag of nothing. -/
def word? (meaning? : String → Option α) : Reading α :=
  through fun _ node =>
    match node with
    | .scalar _ tag text style =>
      match ownName? tag with
      | some name => if style = .plain && isNothing text then meaning? name else none
      | none => meaning? (String.ofList text)
    | _ => none

/-- The fields found in a record, in the order in which the record declares them. -/
abbrev Found := List (Option Node)

/-- Adds an entry to the fields found so far. -/
def addEntry (names : List String) (targets : List (Nat × Node)) (found : Found) (entry : Node × Node) :
    Option Found := do
  let key ← text? targets entry.1
  match names.findIdx? (· == key) with
  | none => some found
  | some i => if (found.getD i none).isSome then none else some (found.set i (some entry.2))

/-- The fields of a record whose declared fields have these names. -/
def record? (names : List String) : Reading Found :=
  through fun targets node =>
    let nothing := names.map fun _ => none
    match node with
    | .mapping _ _ entries => entries.foldlM (addEntry names targets) nothing
    | .scalar _ _ [] .plain => some nothing
    | _ => none

/-- The field at a place, read by `read?` when it was found, else `absent`. -/
def fieldOr (targets : List (Nat × Node)) (found : Found) (place : Nat) (absent : α)
    (read? : Reading α) : Option α :=
  match found.getD place none with
  | some node => read? targets node
  | none => some absent

/-- The field at a place, which has to be there. -/
def field? (targets : List (Nat × Node)) (found : Found) (place : Nat) (read? : Reading α) : Option α :=
  (found.getD place none).bind (read? targets)

/-- Reads a text as a document that is or has a root. -/
def ofText? (read? : Reading α) (text : String) : Option α :=
  (Node.read? text).bind fun root =>
    let root := root.getD (.empty none none)
    read? root.targets root

end Reading

end AdmissionWatch.Yaml
