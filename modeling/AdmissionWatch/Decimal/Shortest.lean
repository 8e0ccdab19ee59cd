import AdmissionWatch.Decimal.Double
import AdmissionWatch.Decimal.Power

/-!
# The shortest decimal that reads back

Among the decimals that round to a given double, those with the fewest digits, and of these the
nearest to it; a tie goes to the even digit. `Shortest.ofPositive` tries the grids of one, two, up
to seventeen digits and takes the first that has a point in the interval of numbers that round to
the double.
-/

namespace AdmissionWatch.Decimal

/-- A positive decimal `0.digits · 10 ^ point`, its first digit not zero: the point stands `point`
places right of the start of the digits. -/
structure Shortest where
  digits : List Char
  point : Int
  deriving DecidableEq, Repr, Inhabited

namespace Shortest

/-- The number of decimal digits before the point of `num / den`, or minus the number of zeros after
it. -/
def magnitude (num den : Nat) : Int :=
  if den ≤ num then (Nat.toDigits 10 (num / den)).length
  else go 400 0 (num * 10)
where
  /-- Counts the zeros after the point. -/
  go : Nat → Nat → Nat → Int
    | 0, zeros, _ => -(zeros : Int)
    | fuel + 1, zeros, n => if den ≤ n then -(zeros : Int) else go fuel (zeros + 1) (n * 10)

/-- `num / den` as a multiple of `10 ^ place`: numerator and denominator of the quotient. -/
def inUnits (num den : Nat) (place : Int) : Nat × Nat :=
  match place with
  | .ofNat p => (num, den * tenTo p)
  | .negSucc p => (num * tenTo (p + 1), den)

/-- The point of a grid that lies in the interval and is nearest to the number, if the interval has
one. All numbers are in units of the grid over the common denominator `den`. -/
def gridPoint? (low num high den : Nat) (closed : Bool) : Option Nat :=
  let below := num / den
  let above := below + 1
  let inside (d : Nat) : Bool :=
    if closed then low ≤ d * den && d * den ≤ high else low < d * den && d * den < high
  let distBelow := num - below * den
  let distAbove := above * den - num
  match inside below && below != 0, inside above with
  | false, false => none
  | true, false => some below
  | false, true => some above
  | true, true =>
    if distBelow < distAbove then some below
    else if distAbove < distBelow then some above
    else some (if below % 2 = 0 then below else above)

/-- Digits without the zeros they end with. -/
def stripZeros (digits : List Char) : List Char :=
  (digits.reverse.dropWhile (· == '0')).reverse

/-- The shortest decimal of the positive double `significand · 2 ^ exponent`. -/
def ofPositive (significand : Nat) (exponent : Int) : Shortest :=
  let (n, d) := Double.ratio significand exponent
  -- in quarters of a unit in the last place of the double
  let num := 4 * n
  let unit := (Double.ratio 1 exponent).1
  let high := num + 2 * unit
  let low := if significand = twoTo 52 ∧ exponent ≠ -1074 then num - unit else num - 2 * unit
  let den := 4 * d
  let size := magnitude num den
  let closed := significand % 2 == 0
  go low num high den size closed 17 1
where
  /-- Tries the grid of `count` digits and finer ones. -/
  go (low num high den : Nat) (size : Int) (closed : Bool) : Nat → Nat → Shortest
    | 0, _ => ⟨['0'], 0⟩
    | fuel + 1, count =>
      let place := size - (count : Int)
      let (low', den') := inUnits low den place
      let (num', _) := inUnits num den place
      let (high', _) := inUnits high den place
      match gridPoint? low' num' high' den' closed with
      | some point =>
        let digits := Nat.toDigits 10 point
        ⟨stripZeros digits, size + (digits.length : Int) - (count : Int)⟩
      | none => go low num high den size closed fuel (count + 1)

end Shortest

end AdmissionWatch.Decimal
