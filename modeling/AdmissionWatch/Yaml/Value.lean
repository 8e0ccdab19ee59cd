import AdmissionWatch.Yaml.Node
import AdmissionWatch.Yaml.Plain

/-!
# Values of YAML

What a document denotes. Aliases stand for the nodes they refer to, tags of the core schema say how
a scalar is to be read, and tags of the document's own are kept. A document denotes nothing when one
of its mappings has a key twice.
-/

namespace AdmissionWatch

/-- Whether two numbers are the same: integers and doubles never are, and what is not a number is
itself. -/
def Number.same : Number → Number → Bool
  | .int a, .int b => a == b
  | .double a, .double b =>
    let x := Float.ofBits a
    let y := Float.ofBits b
    x == y || (x.isNaN && y.isNaN)
  | _, _ => false

namespace Yaml

/-- What a node denotes. -/
inductive Value where
  | null
  | bool (value : Bool)
  | num (value : Number)
  | str (value : String)
  | seq (items : List Value)
  | map (entries : List (Value × Value))
  | tagged (tag : String) (value : Value)
  deriving Repr, Inhabited

namespace Value

mutual

/-- Whether two values are the same; the order of the entries of a mapping does not count. -/
def same : Value → Value → Bool
  | null, null => true
  | bool a, bool b => a == b
  | num a, num b => a.same b
  | str a, str b => a == b
  | seq a, seq b => sameItems a b
  | map a, map b => a.length == b.length && entriesIn a b
  | tagged s a, tagged t b => s == t && same a b
  | _, _ => false

/-- Whether two lists hold the same values in the same order. -/
def sameItems : List Value → List Value → Bool
  | [], [] => true
  | a :: as, b :: bs => same a b && sameItems as bs
  | _, _ => false

/-- Whether all of some entries are among others. -/
def entriesIn : List (Value × Value) → List (Value × Value) → Bool
  | [], _ => true
  | (k, v) :: entries, others => (others.any fun e => same k e.1 && same v e.2) && entriesIn entries others

end

/-- The name of a tag of the document's own, without its exclamation mark. -/
def ownTag? : Option (List Char) → Option String
  | some ['!'] => some "!"
  | some ('!' :: name) => some (String.ofList name)
  | _ => none

/-- What a plain scalar denotes as a value; integers that are not kept denote none. -/
def ofPlain? (s : List Char) : Option Value :=
  match Plain.meaning s with
  | .null => some null
  | .bool b => some (bool b)
  | .number n => some (num n)
  | .excessive => none
  | .text => some (str (String.ofList s))

/-- The name of a tag of the core schema. -/
def coreTag? (tag : List Char) : Option String :=
  (Text.dropStart? Node.corePrefix tag).map String.ofList

/-- What a scalar denotes. -/
def ofScalar? (tag : Option (List Char)) (text : List Char) (style : Style) : Option Value :=
  match tag with
  | none => if style = .plain then ofPlain? text else some (str (String.ofList text))
  | some tag =>
    match coreTag? tag with
    | some "bool" => (Plain.bool? text).map bool
    | some "int" => ((Plain.integer? text).filter fun n => Plain.fits n).map fun n => num (.int n)
    | some "float" => (Plain.double? text).map fun x => num (.double x.toBits)
    | some "null" => if Plain.isNull text then some null else none
    | _ => some (str (String.ofList text))

/-- The deepest nesting of collections in a document. -/
def maxDepth : Nat := 128

/-- How many times as many aliases may be followed as the document has parts. -/
def aliasesPerPart : Nat := 100

/-- Puts the tag of the document's own, if there is one, on a value. -/
def tagging (tag : Option (List Char)) (value : Value) : Value :=
  match ownTag? tag with
  | some name => tagged name value
  | none => value

/-- The tag of a scalar as its reading goes by it: a tag of the document's own says nothing about
it. -/
def readingTag (tag : Option (List Char)) : Option (List Char) :=
  if (ownTag? tag).isSome then none else tag

mutual

/-- What a node denotes, `room` levels of collections allowed and `left` aliases. -/
def ofNode? (targets : List (Nat × Node)) :
    (fuel room left : Nat) → Node → Option (Value × Nat)
  | 0, _, _, _ => none
  | fuel + 1, room, left, node =>
    match node with
    | .alias id =>
      match left, Node.find? targets id with
      | left + 1, some target => ofNode? targets fuel room left target
      | _, _ => none
    | .scalar _ tag text style => (ofScalar? (readingTag tag) text style).map fun v => (tagging tag v, left)
    | .sequence _ tag items =>
      match room with
      | 0 => none
      | room + 1 => (ofItems? targets fuel room left items).map fun (vs, left) => (tagging tag (seq vs), left)
    | .mapping _ tag entries =>
      match room with
      | 0 => none
      | room + 1 => (ofEntries? targets fuel room left [] entries).map fun (es, left) => (tagging tag (map es), left)

/-- What the items of a sequence denote. -/
def ofItems? (targets : List (Nat × Node)) :
    (fuel room left : Nat) → List Node → Option (List Value × Nat)
  | 0, _, _, _ => none
  | _ + 1, _, left, [] => some ([], left)
  | fuel + 1, room, left, item :: items => do
    let (v, left) ← ofNode? targets fuel room left item
    let (vs, left) ← ofItems? targets fuel room left items
    return (v :: vs, left)

/-- What the entries of a mapping denote, after the entries read so far. -/
def ofEntries? (targets : List (Nat × Node)) :
    (fuel room left : Nat) → List (Value × Value) → List (Node × Node) → Option (List (Value × Value) × Nat)
  | 0, _, _, _, _ => none
  | _ + 1, _, left, found, [] => some (found, left)
  | fuel + 1, room, left, found, (key, value) :: entries => do
    let (k, left) ← ofNode? targets fuel room left key
    if found.any fun e => same e.1 k then none
    let (v, left) ← ofNode? targets fuel room left value
    ofEntries? targets fuel room left (found ++ [(k, v)]) entries

end

/-- What a document denotes. -/
def ofDocument? (root : Node) : Option Value :=
  let left := aliasesPerPart * root.size
  (ofNode? root.targets ((left + root.size + 2) * (root.size + 2)) maxDepth left root).map Prod.fst

/-- What a text denotes; a text without a document denotes null. -/
def read? (text : String) : Option Value :=
  match Node.read? text with
  | none => none
  | some none => some null
  | some (some root) => ofDocument? root

end Value

end Yaml

end AdmissionWatch
