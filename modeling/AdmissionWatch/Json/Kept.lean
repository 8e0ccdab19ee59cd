import AdmissionWatch.Json.Raw
import AdmissionWatch.Json.Value
import AdmissionWatch.Text.Digits

/-!
# The meaning of JSON as written

What a string and a number denote, and the value of raw JSON that is kept. Kept values nest at most
127 levels deep, a string's escapes denote characters, and a number is in the range of doubles.
-/

namespace AdmissionWatch.Json

/-- The deepest nesting of values that are kept. -/
def maxDepth : Nat := 127

namespace Raw

/-- The character that a backslash and `c` denote. -/
def simpleEscape (c : Char) : Char :=
  match c with
  | 'b' => '\x08'
  | 'f' => '\x0c'
  | 'n' => '\n'
  | 'r' => '\r'
  | 't' => '\t'
  | c => c

/-- Whether a code unit is the first half of a surrogate pair. -/
def isHighSurrogate (n : Nat) : Bool :=
  0xd800 ≤ n && n ≤ 0xdbff

/-- Whether a code unit is the second half of a surrogate pair. -/
def isLowSurrogate (n : Nat) : Bool :=
  0xdc00 ≤ n && n ≤ 0xdfff

/-- The characters that the body of a string denotes; none when half a surrogate pair stands
alone. -/
def unescape : List Char → Option (List Char)
  | [] => some []
  | '\\' :: 'u' :: a :: b :: c :: d :: '\\' :: 'u' :: e :: f :: g :: h :: rest => do
    let n ← Text.hexNumber? [a, b, c, d]
    let m ← Text.hexNumber? [e, f, g, h]
    if isHighSurrogate n then
      if isLowSurrogate m then
        return Char.ofNat (0x10000 + (n - 0xd800) * 0x400 + (m - 0xdc00)) :: (← unescape rest)
      else none
    else if isLowSurrogate n then none
    else return Char.ofNat n :: (← unescape ('\\' :: 'u' :: e :: f :: g :: h :: rest))
  | '\\' :: 'u' :: a :: b :: c :: d :: rest => do
    let n ← Text.hexNumber? [a, b, c, d]
    if isHighSurrogate n || isLowSurrogate n then none
    else return Char.ofNat n :: (← unescape rest)
  | '\\' :: c :: rest => do return simpleEscape c :: (← unescape rest)
  | c :: rest => do return c :: (← unescape rest)

end Raw

namespace Numeral

/-- The first number past the unsigned 64-bit range. -/
def limit : Nat := 0x10000000000000000

/-- Takes digits into a significand as long as it fits 64 bits; the digits left over are counted. -/
def absorb : Nat → List Char → Nat × Nat
  | significand, [] => (significand, 0)
  | significand, d :: ds =>
    let next := significand * 10 + Text.digitValue d
    if next < limit then absorb next ds else (significand, ds.length + 1)

/-- A power of ten from `1` to `1e308`, rounded to a double. -/
def powerOfTen (n : Nat) : Float :=
  Float.ofScientific 1 false n

/-- `significand · 10 ^ exponent` in double arithmetic: the significand is rounded first and then
scaled once, or, for exponents below -308, in steps of `1e308`. None when it exceeds the range. -/
def scale? : Nat → Float → Int → Option Float
  | 0, x, _ => some x
  | steps + 1, x, exponent =>
    if 308 < exponent then if x == 0.0 then some x else none
    else if 0 ≤ exponent then
      let y := x * powerOfTen exponent.toNat
      if y.isInf then none else some y
    else if -308 ≤ exponent then some (x / powerOfTen (-exponent).toNat)
    else if x == 0.0 then some x
    else scale? steps (x / 1e308) (exponent + 308)

/-- Signed by the numeral and kept by its bits. -/
def signed (negative : Bool) (x : Float) : Number :=
  .double (if negative then -x else x).toBits

/-- The significand and the decimal exponent of a numeral before its written exponent. Digits that
do not fit 64 bits are cut; those before the point count towards the exponent. -/
def significand (n : Numeral) : Nat × Int :=
  let (whole, cut) := absorb 0 n.whole
  let (all, left) := absorb whole n.fraction
  (all, (cut : Int) - ((n.fraction.length - left : Nat) : Int))

/-- The value of a numeral: an integer when it is written as one and fits 64 bits, else a double;
none when it exceeds the range of doubles. -/
def number? (n : Numeral) : Option Number :=
  let (significand, exponent) := n.significand
  let mantissa := (UInt64.ofNat significand).toFloat
  match n.fraction, n.exponent with
  | [], none =>
    if exponent = 0 then
      if !n.negative then some (.int significand)
      else if significand = 0 ∨ 0x8000000000000000 < significand then some (signed true mantissa)
      else some (.int (-significand))
    else (scale? 8 mantissa exponent).map (signed n.negative)
  | _, none => (scale? 8 mantissa exponent).map (signed n.negative)
  | _, some (negative, digits) =>
    let written := Text.natOfDigits digits
    if 0x80000000 ≤ written then
      if significand ≠ 0 ∧ !negative then none else some (signed n.negative 0.0)
    else
      let total := if negative then exponent - written else exponent + written
      (scale? 8 mantissa total).map (signed n.negative)

end Numeral

namespace Raw

mutual

/-- The value of raw JSON in which at most `room` levels may nest. -/
def value? (room : Nat) : Raw → Option Json
  | null => some .null
  | bool b => some (.bool b)
  | num n => n.number?.map .num
  | str s => (unescape s).map fun s => .str (String.ofList s)
  | arr items => if room = 0 then none else (values? (room - 1) items).map .arr
  | obj members => if room = 0 then none else (fields? (room - 1) members).map fun ms => .obj (Dict.ofEntries ms)

/-- The values of a list of items. -/
def values? (room : Nat) : List Raw → Option (List Json)
  | [] => some []
  | item :: items => do
    let v ← value? room item
    let vs ← values? room items
    return v :: vs

/-- The members of an object in the order written. -/
def fields? (room : Nat) : List (List Char × Raw) → Option (List (String × Json))
  | [] => some []
  | (key, item) :: members => do
    let k ← unescape key
    let v ← value? room item
    let ms ← fields? room members
    return (String.ofList k, v) :: ms

end

end Raw

/-- Reads a text as a value that is kept whole. -/
def read? (s : String) : Option Json :=
  (Raw.read? s.toList).bind (Raw.value? maxDepth)

end AdmissionWatch.Json
