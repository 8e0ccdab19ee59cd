/-!
# Powers

Powers of two, in which the sizes of numbers are told, and powers of ten, by which decimals are
scaled.
-/

namespace AdmissionWatch.Decimal

/-- A power of two. -/
def twoTo (n : Nat) : Nat := Nat.pow 2 n

/-- A power of ten. -/
def tenTo (n : Nat) : Nat := Nat.pow 10 n

end AdmissionWatch.Decimal
