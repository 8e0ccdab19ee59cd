import AdmissionWatch.Text.Blank

/-!
# Finding one text in another

The first occurrence of a text cuts another text in two. Searching is by characters; since one text
is found in another at character boundaries only, it finds what a search by bytes finds.
-/

namespace AdmissionWatch.Text

/-- The parts of a text before and after the first occurrence of `sep`. -/
def splitOnce (sep : List Char) : List Char → Option (List Char × List Char)
  | [] => if sep = [] then some ([], []) else none
  | c :: s =>
    if sep.isPrefixOf (c :: s) then some ([], (c :: s).drop sep.length)
    else (splitOnce sep s).map fun (before, after) => (c :: before, after)

/-- Whether `sub` occurs in a text. -/
def occurs (sub s : List Char) : Bool :=
  (splitOnce sub s).isSome

/-- What follows `start` in a text that starts with it. -/
def dropStart? (start s : List Char) : Option (List Char) :=
  if start.isPrefixOf s then some (s.drop start.length) else none

/-- The parts of a string before and after the first occurrence of `sep`. -/
def cut? (sep s : String) : Option (String × String) :=
  (splitOnce sep.toList s.toList).map fun (before, after) => (String.ofList before, String.ofList after)

/-- Whether `sub` occurs in a string. -/
def hasText (sub s : String) : Bool :=
  occurs sub.toList s.toList

/-- The trimmed text between the first occurrence of `start` and the first `stop` after it, when it
is not blank. -/
def between? (start stop s : String) : Option String := do
  let (_, rest) ← cut? start s
  let (inner, _) ← cut? stop rest
  let name := trimmed inner
  if name.isEmpty then none else some name

/-- A string without any occurrence of the character `c`. -/
def without (c : Char) (s : String) : String :=
  String.ofList (s.toList.filter (· != c))

/-- The pieces of a text between the occurrences of the character `c`; one more than there are
occurrences. -/
def pieces (c : Char) : List Char → List (List Char)
  | [] => [[]]
  | d :: s =>
    match pieces c s with
    | [] => [[]]
    | p :: ps => if d = c then [] :: p :: ps else (d :: p) :: ps

end AdmissionWatch.Text
