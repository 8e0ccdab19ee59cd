import AdmissionWatch.Decimal.Power
import AdmissionWatch.Decimal.Reading
import AdmissionWatch.Json.Value
import AdmissionWatch.Text.Hex
import AdmissionWatch.Text.Search

/-!
# What plain scalars denote

The core schema: which plain scalars are null, truth values, integers and doubles. Every other one
is a string.
-/

namespace AdmissionWatch.Yaml.Plain

/-- Whether a scalar is one of the words for null. -/
def isNull (s : List Char) : Bool :=
  ["null", "Null", "NULL", "~"].any fun w => w.toList == s

/-- The truth value that a scalar writes. -/
def bool? (s : List Char) : Option Bool :=
  if ["true", "True", "TRUE"].any fun w => w.toList == s then some true
  else if ["false", "False", "FALSE"].any fun w => w.toList == s then some false
  else none

/-- The scalar without one sign at its start. -/
def unsigned (s : List Char) : List Char :=
  match s with
  | '-' :: s | '+' :: s => s
  | s => s

/-- Whether a scalar is two digits or more, the first of them zero, up to a sign: such a scalar is
not a number. -/
def isPaddedDigits (s : List Char) : Bool :=
  match unsigned s with
  | '0' :: d :: rest => (d :: rest).all Char.isDigit
  | _ => false

/-- The number that digits of a base write; there is at least one. -/
def digits? (base : Nat) (s : List Char) : Option Nat :=
  if s = [] then none
  else s.foldlM (fun n c => (Text.hexValue? c).bind fun d => if d < base then some (n * base + d) else none) 0

/-- The base that a scalar starts with, and what follows it. -/
def based? (s : List Char) : Option (Nat × List Char) :=
  match s with
  | '0' :: 'x' :: s => some (16, s)
  | '0' :: 'o' :: s => some (8, s)
  | '0' :: 'b' :: s => some (2, s)
  | _ => none

/-- The natural number that a scalar writes, with at most a plus sign before it. -/
def natural? (s : List Char) : Option Nat :=
  let positive := (Text.dropStart? ['+'] s).getD s
  match based? positive with
  | some (base, digits) => digits? base digits
  | none => if isPaddedDigits s then none else digits? 10 positive

/-- The integer that a scalar writes after a minus sign. -/
def negative? (s : List Char) : Option Int :=
  match s with
  | '-' :: rest =>
    match based? rest with
    | some (base, digits) => (digits? base digits).map fun n => -(n : Int)
    | none => if isPaddedDigits s then none else (digits? 10 rest).map fun n => -(n : Int)
  | _ => none

/-- The integer of at most 128 bits that a scalar writes. -/
def integer? (s : List Char) : Option Int :=
  match natural? s with
  | some n => if n < Decimal.twoTo 128 then some n else none
  | none => (negative? s).filter fun n => -(Decimal.twoTo 127 : Int) ≤ n

/-- Whether an integer is kept: it has 64 bits, signed or not. -/
def fits (n : Int) : Bool :=
  -0x8000000000000000 ≤ n && n < 0x10000000000000000

/-- The double that a scalar writes. -/
def double? (s : List Char) : Option Float :=
  let infinity : Float := 1.0 / 0.0
  let positive := (Text.dropStart? ['+'] s).getD s
  let isOneOf (words : List String) (s : List Char) : Bool := words.any fun w => w.toList == s
  if positive ≠ s ∧ unsigned positive ≠ positive then none
  else if isOneOf [".inf", ".Inf", ".INF"] positive then some infinity
  else if isOneOf ["-.inf", "-.Inf", "-.INF"] s then some (-infinity)
  else if isOneOf [".nan", ".NaN", ".NAN"] s then some (0.0 / 0.0)
  else Decimal.finite? positive

/-- What a scalar denotes. -/
inductive Meaning where
  | null
  | bool (value : Bool)
  | number (value : Number)
  /-- An integer that is not kept. -/
  | excessive
  | text
  deriving DecidableEq, Repr

/-- What a plain scalar denotes. -/
def meaning (s : List Char) : Meaning :=
  if s = [] ∨ isNull s then .null
  else
    match bool? s with
    | some b => .bool b
    | none =>
      match integer? s with
      | some n => if fits n then .number (.int n) else .excessive
      | none =>
        if isPaddedDigits s then .text
        else
          match double? s with
          | some x => .number (.double x.toBits)
          | none => .text

end AdmissionWatch.Yaml.Plain
