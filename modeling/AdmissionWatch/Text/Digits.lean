/-!
# Decimal digits

The numbers that runs of ASCII digits write.
-/

namespace AdmissionWatch.Text

/-- The value of a digit. -/
def digitValue (c : Char) : Nat :=
  c.toNat - 48

/-- The number that digits write, the first the most significant. -/
def natOfDigits (digits : List Char) : Nat :=
  digits.foldl (fun n c => n * 10 + digitValue c) 0

/-- The number that a text writes: at least one digit, and nothing else. -/
def nat? (s : List Char) : Option Nat :=
  if s ≠ [] ∧ s.all Char.isDigit then some (natOfDigits s) else none

end AdmissionWatch.Text
