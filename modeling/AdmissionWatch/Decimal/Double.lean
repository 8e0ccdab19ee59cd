import AdmissionWatch.Decimal.Power

/-!
# Doubles as exact numbers

A finite double is `significand · 2 ^ exponent`, up to its sign. The decimal texts of this library
are computed from this pair in exact arithmetic.
-/

namespace AdmissionWatch.Decimal

/-- A double taken apart. -/
inductive Double where
  /-- `± significand · 2 ^ exponent`; `even` neighbours and gaps follow from the significand. -/
  | finite (negative : Bool) (significand : Nat) (exponent : Int)
  /-- An infinity. -/
  | infinite (negative : Bool)
  /-- Not a number. -/
  | nan
  deriving DecidableEq, Repr, Inhabited

namespace Double

/-- The double with these 64 bits. -/
def ofBits (bits : UInt64) : Double :=
  let b : Nat := bits.toNat
  let negative := b / twoTo 63 == 1
  let biased : Nat := b / twoTo 52 % twoTo 11
  let fraction : Nat := b % twoTo 52
  if biased = twoTo 11 - 1 then if fraction = 0 then infinite negative else nan
  else if biased = 0 then finite negative fraction (-1074)
  else finite negative (twoTo 52 + fraction) ((biased : Int) - 1075)

/-- The numerator and denominator of `significand · 2 ^ exponent`. -/
def ratio (significand : Nat) (exponent : Int) : Nat × Nat :=
  match exponent with
  | .ofNat e => (significand * twoTo e, 1)
  | .negSucc e => (significand, twoTo (e + 1))

end Double

end AdmissionWatch.Decimal
