import AdmissionWatch.Decimal.Power
import AdmissionWatch.Http.Percent
import AdmissionWatch.Text.Digits
import AdmissionWatch.Text.Search

/-!
# Hosts

The host of a network address in its one text: a name in lower case, an address of four numbers, or
an address of eight numbers in square brackets. The numbers of an address may be written in many
ways. Of a name the percent signs are decoded and the capitals lowered, and that is all: characters
beyond ASCII are not put into the ASCII form of international names, and labels in that form are not
checked.
-/

namespace AdmissionWatch.Http

/-- The number that digits of a base write; none if there is another character. -/
def numberIn? (base : Nat) (digits : List Char) : Option Nat :=
  digits.foldlM (fun n c => (Text.hexValue? c).bind fun d => if d < base then some (n * base + d) else none) 0

/-- A part of an address of four numbers: a number in base 16 after `0x`, in base 8 after `0`, else
in base 10. -/
def addressPart? : List Char → Option Nat
  | [] => none
  | '0' :: 'x' :: digits => numberIn? 16 digits
  | '0' :: 'X' :: digits => numberIn? 16 digits
  | '0' :: digits => numberIn? 8 digits
  | digits => numberIn? 10 digits

/-- The parts of a name between points, without the empty one after a point at the end. -/
def nameParts (s : List Char) : List (List Char) :=
  let parts := Text.pieces '.' s
  if 1 < parts.length ∧ parts.getLast? = some [] then parts.dropLast else parts

/-- Whether a name has to be an address: its last part is a number. -/
def endsInNumber (s : List Char) : Bool :=
  match (nameParts s).getLast? with
  | some part => part ≠ [] && (part.all Char.isDigit || (addressPart? part).isSome)
  | none => false

/-- The number that the parts of an address write: each is a byte, except that the last one fills
what is left. -/
def addressOfParts? (parts : List Nat) : Option Nat :=
  match parts.reverse with
  | [] => none
  | last :: firsts =>
    if 4 < parts.length ∨ firsts.any (255 < ·) ∨ Decimal.twoTo (8 * (5 - parts.length)) ≤ last then none
    else some (parts.dropLast.zipIdx.foldl (fun sum (b, i) => sum + b * Decimal.twoTo (8 * (3 - i))) last)

/-- The text of an address of four bytes. -/
def addressText (n : Nat) : String :=
  ".".intercalate ([n / 16777216, n / 65536, n / 256, n].map fun b => toString (b % 256))

/-- Reads an address of four numbers. -/
def address? (s : List Char) : Option String :=
  (((nameParts s).mapM addressPart?).bind addressOfParts?).map addressText

/-- A byte in base 10 without zeros before it. -/
def byte? (s : List Char) : Option Nat :=
  if s.length ≤ 3 ∧ (s.head? ≠ some '0' ∨ s.length = 1) then (Text.nat? s).filter (· ≤ 255) else none

/-- A piece of a long address: up to four digits in base 16. -/
def longPiece? (s : List Char) : Option Nat :=
  if s.length ≤ 4 ∧ s ≠ [] then numberIn? 16 s else none

/-- The pieces of a part of a long address; the last one may be an address of four bytes, which
makes two pieces. -/
def longPieces? : List (List Char) → Option (List Nat)
  | [] => some []
  | [last] =>
    match (Text.pieces '.' last).mapM byte? with
    | some [a, b, c, d] => if 1 < (Text.pieces '.' last).length then some [a * 256 + b, c * 256 + d] else none
    | _ => (longPiece? last).map ([·])
  | piece :: rest => do return (← longPiece? piece) :: (← longPieces? rest)

/-- The pieces of a part of a long address. -/
def longPart? (s : List Char) : Option (List Nat) :=
  if s = [] then some [] else longPieces? (Text.pieces ':' s)

/-- Reads the eight pieces of a long address; a pair of colons stands for as many zeros as are
missing. -/
def longAddress? (s : List Char) : Option (List Nat) :=
  match Text.splitOnce [':', ':'] s with
  | none => (longPart? s).filter (·.length = 8)
  | some (before, after) => do
    let before ← if before.contains '.' then none else longPart? before
    let after ← longPart? after
    let known := before.length + after.length
    if known ≤ 7 then some (before ++ List.replicate (8 - known) 0 ++ after) else none

/-- How many zeros follow each other from a place on. -/
def zerosFrom (pieces : List Nat) (place : Nat) : Nat :=
  ((pieces.drop place).takeWhile (· = 0)).length

/-- Where the first of the longest runs of zeros starts, and its length. -/
def longestZeros (pieces : List Nat) : Nat × Nat :=
  (List.range pieces.length).foldl
    (fun best i => if best.2 < zerosFrom pieces i then (i, zerosFrom pieces i) else best) (0, 0)

/-- The text of a long address: the first of the longest runs of two zeros or more is left out. -/
def longText (pieces : List Nat) : String :=
  let text (ps : List Nat) := ":".intercalate (ps.map fun p => String.ofList (Nat.toDigits 16 p))
  let (place, length) := longestZeros pieces
  if length < 2 then text pieces else text (pieces.take place) ++ "::" ++ text (pieces.drop (place + length))

/-- What cannot be part of a name. -/
def notInName (c : Char) : Bool :=
  c ≤ ' ' || c = '\x7f' || ['#', '/', ':', '<', '>', '?', '@', '[', '\\', ']', '^', '|', '%'].contains c

/-- Why a text is no URL. -/
inductive UrlError where
  /-- It does not start with a scheme. -/
  | noScheme
  /-- There is no host where there has to be one. -/
  | emptyHost
  /-- The port is no number or too large. -/
  | badPort
  /-- The host is neither a name nor an address. -/
  | badHost
  deriving DecidableEq, Repr

/-- What is reported of it. -/
def UrlError.message : UrlError → String
  | noScheme => "relative URL without a base"
  | emptyHost => "empty host"
  | badPort => "invalid port number"
  | badHost => "invalid domain character"

/-- Reads the host of a network address. This is how names in ASCII are read that have no label with
`xn--` before it; an international name would have to be mapped and checked as well. -/
def readHost (s : List Char) : Except UrlError String :=
  match s with
  | '[' :: inner =>
    if inner.getLast? = some ']' then
      match longAddress? inner.dropLast with
      | some pieces => .ok ("[" ++ longText pieces ++ "]")
      | none => .error .badHost
    else .error .badHost
  | _ =>
    match String.fromUTF8? ⟨(percentDecoded s).toArray⟩ with
    | none => .error .badHost
    | some name =>
      let name := name.toList.map Char.toLower
      if name = [] then .error .emptyHost
      else if name.any notInName then .error .badHost
      else if endsInNumber name then
        match address? name with
        | some address => .ok address
        | none => .error .badHost
      else .ok (String.ofList name)

/-- Reads the host of an address of another kind, which is kept as it is. -/
def readOpaqueHost (s : List Char) : Except UrlError String :=
  match s with
  | '[' :: _ => readHost s
  | _ =>
    if s.any fun c => c != '%' && notInName c then .error .badHost
    else .ok (String.ofList (percentEncoded isOutside s))

end AdmissionWatch.Http
