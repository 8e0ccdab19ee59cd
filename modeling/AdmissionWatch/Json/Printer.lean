import AdmissionWatch.Decimal.Text
import AdmissionWatch.Json.Value
import AdmissionWatch.Text.Hex

/-!
# Writing JSON

The compact text of a value: members in their order, no blanks, control characters, quotes and
backslashes escaped, every other character as it is.
-/

namespace AdmissionWatch.Json

/-- A character inside a string. -/
def escapeChar (c : Char) : List Char :=
  match c with
  | '"' => ['\\', '"']
  | '\\' => ['\\', '\\']
  | '\x08' => ['\\', 'b']
  | '\x0c' => ['\\', 'f']
  | '\n' => ['\\', 'n']
  | '\r' => ['\\', 'r']
  | '\t' => ['\\', 't']
  | c => if c.toNat < 32 then '\\' :: 'u' :: Text.hexPadded 4 c.toNat else [c]

/-- A quoted string. -/
def quoted (s : String) : List Char :=
  '"' :: s.toList.flatMap escapeChar ++ ['"']

/-- A number. -/
def numberText : Number → List Char
  | .int n => (toString n).toList
  | .double bits => (Decimal.shortestText Decimal.jsonLayout (Decimal.Double.ofBits bits)).toList

mutual

/-- The characters of a value. -/
def chars : Json → List Char
  | null => ['n', 'u', 'l', 'l']
  | bool true => ['t', 'r', 'u', 'e']
  | bool false => ['f', 'a', 'l', 's', 'e']
  | num n => numberText n
  | str s => quoted s
  | arr items => '[' :: itemChars items ++ [']']
  | obj members => '\x7b' :: memberChars members ++ ['\x7d']

/-- The items of an array with commas between them. -/
def itemChars : List Json → List Char
  | [] => []
  | [v] => chars v
  | v :: vs => chars v ++ ',' :: itemChars vs

/-- The members of an object with commas between them. -/
def memberChars : List (String × Json) → List Char
  | [] => []
  | [(k, v)] => quoted k ++ ':' :: chars v
  | (k, v) :: ms => quoted k ++ ':' :: chars v ++ ',' :: memberChars ms

end

/-- The compact text of a value. -/
def text (v : Json) : String :=
  String.ofList (chars v)

end AdmissionWatch.Json
