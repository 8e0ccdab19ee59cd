import AdmissionWatch.Decimal.Power
import AdmissionWatch.Decimal.Shortest

/-!
# Texts of doubles

`shortestText` writes the shortest decimal that reads back, `fixedText` a fixed number of places,
where a half goes to the even neighbour.
-/

namespace AdmissionWatch.Decimal

/-- How the shortest decimal is laid out. -/
structure Layout where
  /-- Positional as long as at most this many digits stand before the point. -/
  mostBefore : Int
  /-- Positional as long as at most this many zeros stand after the point. -/
  mostZeros : Int
  /-- The text of an infinity, without its sign. -/
  infinity : String
  /-- The text of what is not a number. -/
  nan : String
  deriving Repr

/-- Numbers in JSON: positional from `1e-5` up to `1e16`, always with a point or an exponent. -/
def jsonLayout : Layout := ⟨16, 4, "inf", "NaN"⟩

/-- Numbers in YAML: as in JSON, with the words of that format for what is not finite. -/
def yamlLayout : Layout := ⟨16, 4, ".inf", ".nan"⟩

/-- `n` zeros. -/
def zeros (n : Int) : List Char :=
  List.replicate n.toNat '0'

/-- The digits of a positive decimal, laid out. -/
def Layout.unsigned (l : Layout) (s : Shortest) : List Char :=
  let n : Int := s.digits.length
  if n ≤ s.point ∧ s.point ≤ l.mostBefore then
    s.digits ++ zeros (s.point - n) ++ ['.', '0']
  else if 0 < s.point ∧ s.point ≤ l.mostBefore then
    s.digits.take s.point.toNat ++ '.' :: s.digits.drop s.point.toNat
  else if s.point ≤ 0 ∧ -s.point ≤ l.mostZeros then
    '0' :: '.' :: zeros (-s.point) ++ s.digits
  else
    let power := (toString (s.point - 1)).toList
    match s.digits with
    | [] => []
    | [d] => d :: 'e' :: power
    | d :: rest => d :: '.' :: rest ++ 'e' :: power

/-- The text of a double, laid out. -/
def shortestText (l : Layout) (x : Double) : String :=
  let sign (negative : Bool) : List Char := if negative then ['-'] else []
  match x with
  | .nan => l.nan
  | .infinite negative => String.ofList (sign negative) ++ l.infinity
  | .finite negative 0 _ => String.ofList (sign negative ++ ['0', '.', '0'])
  | .finite negative m e => String.ofList (sign negative ++ l.unsigned (Shortest.ofPositive m e))

/-- The integer nearest to `num / den`, a half going to the even one. -/
def roundDiv (num den : Nat) : Nat :=
  let q := num / den
  let r := num % den
  if 2 * r < den then q else if den < 2 * r then q + 1 else if q % 2 = 0 then q else q + 1

/-- A natural number of units `10 ^ -places`, written with its point. -/
def withPoint (places units : Nat) : List Char :=
  let digits := Nat.toDigits 10 units
  let padded := List.replicate (places + 1 - digits.length) '0' ++ digits
  let whole := padded.length - places
  if places = 0 then padded else padded.take whole ++ '.' :: padded.drop whole

/-- A double with a fixed number of places after the point. -/
def fixedText (places : Nat) (x : Double) : String :=
  match x with
  | .nan => "NaN"
  | .infinite negative => if negative then "-inf" else "inf"
  | .finite negative m e =>
    let (n, d) := Double.ratio m e
    String.ofList ((if negative then ['-'] else []) ++ withPoint places (roundDiv (n * tenTo places) d))

end AdmissionWatch.Decimal
