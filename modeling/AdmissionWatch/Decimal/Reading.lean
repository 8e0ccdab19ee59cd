import AdmissionWatch.Text.Digits

/-!
# Reading doubles

Decimal texts: digits with at most one point among them, and an exponent. The double read is the one
nearest to the decimal.
-/

namespace AdmissionWatch.Decimal

/-- A decimal exponent after its letter: digits with at most one sign before them. -/
def exponent? (s : List Char) : Option Int :=
  match s with
  | '-' :: s => (Text.nat? s).map fun n => -(n : Int)
  | '+' :: s => (Text.nat? s).map fun n => (n : Int)
  | s => (Text.nat? s).map fun n => (n : Int)

/-- The significand and the exponent of an unsigned decimal; it has at least one digit before its
exponent. -/
def unsigned? (s : List Char) : Option (Nat × Int) := do
  let whole := s.takeWhile Char.isDigit
  let rest := s.dropWhile Char.isDigit
  let (fraction, rest) :=
    match rest with
    | '.' :: rest => (rest.takeWhile Char.isDigit, rest.dropWhile Char.isDigit)
    | _ => ([], rest)
  if whole = [] ∧ fraction = [] then none
  let exponent ←
    match rest with
    | [] => some 0
    | 'e' :: rest | 'E' :: rest => exponent? rest
    | _ => none
  return (Text.natOfDigits (whole ++ fraction), exponent - (fraction.length : Int))

/-- The double nearest to `significand · 10 ^ exponent`; decimals far out of the range of doubles
are zero or infinite without further ado. -/
def nearest (significand : Nat) (exponent : Int) : Float :=
  let magnitude : Int := (Nat.toDigits 10 significand).length + exponent
  if significand = 0 ∨ magnitude < -400 then 0.0
  else if 400 < magnitude then 1.0 / 0.0
  else Float.ofScientific significand (exponent < 0) exponent.natAbs

/-- The finite double that a decimal text with at most one sign writes. -/
def finite? (s : List Char) : Option Float := do
  let (negative, s) :=
    match s with
    | '-' :: s => (true, s)
    | '+' :: s => (false, s)
    | s => (false, s)
  let (significand, exponent) ← unsigned? s
  let x := nearest significand exponent
  if x.isInf then none else some (if negative then -x else x)

end AdmissionWatch.Decimal
