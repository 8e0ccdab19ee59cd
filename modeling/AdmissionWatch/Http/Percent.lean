import AdmissionWatch.Text.Hex

/-!
# Percent encoding

In a URL the bytes of a character that has no place where it stands are written as a percent sign
and two digits. Which characters have a place depends on the part of the URL.
-/

namespace AdmissionWatch.Http

/-- The upper-case digit of a number below sixteen. -/
def upperDigit (n : Nat) : Char :=
  (Text.hexDigit n).toUpper

/-- A byte as a percent sign and two digits. -/
def percentByte (b : UInt8) : List Char :=
  ['%', upperDigit (b.toNat / 16), upperDigit (b.toNat % 16)]

/-- A character, encoded if it has no place. -/
def percentChar (hasNoPlace : Char → Bool) (c : Char) : List Char :=
  if hasNoPlace c then c.toString.toUTF8.toList.flatMap percentByte else [c]

/-- A text in which the characters without a place are encoded. -/
def percentEncoded (hasNoPlace : Char → Bool) (s : List Char) : List Char :=
  s.flatMap (percentChar hasNoPlace)

/-- What has no place anywhere: controls and what is not ASCII. -/
def isOutside (c : Char) : Bool := c < ' ' || '~' < c

/-- What has no place in a path. -/
def notInPath (c : Char) : Bool := isOutside c || [' ', '"', '<', '>', '\x60', '#', '?', '\x7b', '\x7d'].contains c

/-- What has no place in the name of a user. -/
def notInUser (c : Char) : Bool :=
  notInPath c || ['/', ':', ';', '=', '@', '[', '\\', ']', '^', '|'].contains c

/-- What has no place in the query of a network address. -/
def notInQuery (c : Char) : Bool := isOutside c || [' ', '"', '#', '<', '>', '\''].contains c

/-- What has no place in a form. A blank is written as a plus sign there. -/
def notInForm (c : Char) : Bool := !(c.isAlphanum || ['*', '-', '.', '_', ' '].contains c)

/-- A field of a form. -/
def formField (name value : String) : String :=
  let part (s : String) := (percentEncoded notInForm s.toList).map fun c => if c = ' ' then '+' else c
  String.ofList (part name ++ '=' :: part value)

/-- The bytes of a text in which percent signs and two digits stand for bytes; other percent signs
stand for themselves. -/
def percentDecoded : List Char → List UInt8
  | '%' :: a :: b :: rest =>
    match Text.hexNumber? [a, b] with
    | some n => UInt8.ofNat n :: percentDecoded rest
    | none => 37 :: percentDecoded (a :: b :: rest)
  | c :: rest => c.toString.toUTF8.toList ++ percentDecoded rest
  | [] => []

end AdmissionWatch.Http
