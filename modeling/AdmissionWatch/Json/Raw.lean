import AdmissionWatch.Text.Hex

/-!
# JSON as written

The grammar of JSON without the meaning of its strings and numbers. A reader that skips a value asks
only for this grammar; one that keeps it also asks that a string's escapes denote characters and
that a number is in range. Nesting is not limited here.
-/

namespace AdmissionWatch.Json

/-- A number as written. -/
structure Numeral where
  negative : Bool
  whole : List Char
  fraction : List Char
  /-- Whether the exponent is negative, and its digits. -/
  exponent : Option (Bool × List Char)
  deriving DecidableEq, Repr, Inhabited

/-- A value as written; strings and keys without their quotes, escapes in place. -/
inductive Raw where
  | null
  | bool (value : Bool)
  | num (value : Numeral)
  | str (body : List Char)
  | arr (items : List Raw)
  | obj (members : List (List Char × Raw))
  deriving Repr, Inhabited

namespace Raw

/-- The blanks of JSON. -/
def isSpace (c : Char) : Bool :=
  c = ' ' || c = '\n' || c = '\t' || c = '\r'

/-- Skips blanks. -/
def skip (s : List Char) : List Char :=
  s.dropWhile isSpace

/-- The characters that may follow a backslash, `u` apart. -/
def isSimpleEscape (c : Char) : Bool :=
  c = '"' || c = '\\' || c = '/' || c = 'b' || c = 'f' || c = 'n' || c = 'r' || c = 't'

/-- Whether a character is a hexadecimal digit. -/
def isHex (c : Char) : Bool :=
  (Text.hexValue? c).isSome

/-- The body of a string whose opening quote has been read, and what follows its closing quote. -/
def body : List Char → Option (List Char × List Char)
  | [] => none
  | '"' :: rest => some ([], rest)
  | '\\' :: 'u' :: a :: b :: c :: d :: rest =>
    if isHex a && isHex b && isHex c && isHex d then
      (body rest).map fun (s, r) => ('\\' :: 'u' :: a :: b :: c :: d :: s, r)
    else none
  | '\\' :: c :: rest =>
    if isSimpleEscape c then (body rest).map fun (s, r) => ('\\' :: c :: s, r) else none
  | c :: rest =>
    if c.toNat < 32 || c = '\\' then none else (body rest).map fun (s, r) => (c :: s, r)

/-- The digits a text starts with, and the rest. -/
def digits (s : List Char) : List Char × List Char :=
  (s.takeWhile Char.isDigit, s.dropWhile Char.isDigit)

/-- The fraction after a point, if there is a point. -/
def fraction : List Char → Option (List Char × List Char)
  | '.' :: rest =>
    match digits rest with
    | ([], _) => none
    | found => some found
  | s => some ([], s)

/-- The exponent after `e` or `E`, if there is one. -/
def exponent : List Char → Option (Option (Bool × List Char) × List Char)
  | c :: rest =>
    if c = 'e' || c = 'E' then
      let (negative, rest) :=
        match rest with
        | '+' :: r => (false, r)
        | '-' :: r => (true, r)
        | r => (false, r)
      match digits rest with
      | ([], _) => none
      | (ds, r) => some (some (negative, ds), r)
    else some (none, c :: rest)
  | [] => some (none, [])

/-- A number and what follows it. More than one digit does not start with a zero. -/
def numeral (s : List Char) : Option (Numeral × List Char) := do
  let (negative, s) :=
    match s with
    | '-' :: r => (true, r)
    | r => (false, r)
  match digits s with
  | ([], _) => none
  | ('0' :: _ :: _, _) => none
  | (whole, s) =>
    let (fraction, s) ← fraction s
    let (exponent, s) ← exponent s
    return (⟨negative, whole, fraction, exponent⟩, s)

mutual

/-- A value and what follows it. -/
def value : Nat → List Char → Option (Raw × List Char)
  | 0, _ => none
  | fuel + 1, s =>
    match skip s with
    | 'n' :: 'u' :: 'l' :: 'l' :: rest => some (null, rest)
    | 't' :: 'r' :: 'u' :: 'e' :: rest => some (bool true, rest)
    | 'f' :: 'a' :: 'l' :: 's' :: 'e' :: rest => some (bool false, rest)
    | '"' :: rest => (body rest).map fun (b, r) => (str b, r)
    | '[' :: rest =>
      match skip rest with
      | ']' :: rest => some (arr [], rest)
      | rest => (items fuel rest).map fun (vs, r) => (arr vs, r)
    | '\x7b' :: rest =>
      match skip rest with
      | '\x7d' :: rest => some (obj [], rest)
      | rest => (members fuel rest).map fun (ms, r) => (obj ms, r)
    | s => (numeral s).map fun (n, r) => (num n, r)

/-- The items of an array from the first or the next one on, and what follows the closing
bracket. -/
def items : Nat → List Char → Option (List Raw × List Char)
  | 0, _ => none
  | fuel + 1, s =>
    match value fuel s with
    | none => none
    | some (v, rest) =>
      match skip rest with
      | ']' :: rest => some ([v], rest)
      | ',' :: rest => (items fuel rest).map fun (vs, r) => (v :: vs, r)
      | _ => none

/-- The members of an object from the first or the next one on, and what follows the closing
brace. -/
def members : Nat → List Char → Option (List (List Char × Raw) × List Char)
  | 0, _ => none
  | fuel + 1, s =>
    match skip s with
    | '"' :: rest =>
      match body rest with
      | none => none
      | some (key, rest) =>
        match skip rest with
        | ':' :: rest =>
          match value fuel rest with
          | none => none
          | some (v, rest) =>
            match skip rest with
            | '\x7d' :: rest => some ([(key, v)], rest)
            | ',' :: rest => (members fuel rest).map fun (ms, r) => ((key, v) :: ms, r)
            | _ => none
        | _ => none
    | _ => none

end

/-- Reads a whole text as one value. Each value and each comma takes a character, so the fuel does
not run out. -/
def read? (s : List Char) : Option Raw :=
  match value (2 * s.length + 2) s with
  | some (v, rest) => if skip rest = [] then some v else none
  | none => none

end Raw

end AdmissionWatch.Json
