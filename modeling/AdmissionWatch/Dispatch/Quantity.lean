import AdmissionWatch.Decimal.Text
import AdmissionWatch.Time.Span

/-!
# Quantities

The numbers that tokens are counted in. Doubles are what a running watcher counts in; in rational
numbers the same counting is exact.
-/

namespace AdmissionWatch.Dispatch

/-- Numbers to count tokens and seconds in. -/
class Quantity (α : Type) extends Add α, Sub α, Mul α, Div α, Min α, LE α where
  decLe (a b : α) : Decidable (a ≤ b)
  /-- A whole number. -/
  ofNat : Nat → α
  /-- A span in seconds. -/
  seconds : Time.Span → α
  /-- So many seconds as a span, to the nearest nanosecond. -/
  span : α → Time.Span

instance decidableLe {α : Type} [Quantity α] (a b : α) : Decidable (a ≤ b) := Quantity.decLe a b

/-- The span of a double that is not negative. -/
def spanOfFloat (x : Float) : Time.Span :=
  match Decimal.Double.ofBits x.toBits with
  | .finite false m e =>
    let (num, den) := Decimal.Double.ratio m e
    ⟨Decimal.roundDiv (num * 1000000000) den⟩
  | .infinite false => .longest
  | _ => .zero

instance : Quantity Float where
  decLe := inferInstance
  ofNat n := (UInt64.ofNat n).toFloat
  seconds := Time.Span.toFloat
  span := spanOfFloat

instance : Quantity Rat where
  min a b := if a ≤ b then a else b
  decLe := inferInstance
  ofNat n := n
  seconds d := (d.nanos : Rat) / 1000000000
  span x := ⟨Decimal.roundDiv (x.num.toNat * 1000000000) x.den⟩

end AdmissionWatch.Dispatch
