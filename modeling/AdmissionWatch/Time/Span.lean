import AdmissionWatch.Decimal.Text
import AdmissionWatch.Text.Blank
import AdmissionWatch.Text.Digits

/-!
# Spans of time

A span is a number of nanoseconds. It has two texts. The diagnostic one uses the largest unit among
seconds, milliseconds, microseconds and nanoseconds of which there is at least one, with a fraction.
The one in settings has whole milliseconds or whole seconds and is read back by `Span.read`.
-/

namespace AdmissionWatch.Time

/-- A length of time. -/
structure Span where
  nanos : Nat
  deriving DecidableEq, Repr, Inhabited

namespace Span

/-- So many seconds. -/
def ofSeconds (n : Nat) : Span := ⟨n * 1000000000⟩

/-- So many milliseconds. -/
def ofMillis (n : Nat) : Span := ⟨n * 1000000⟩

/-- So many microseconds. -/
def ofMicros (n : Nat) : Span := ⟨n * 1000⟩

/-- No time. -/
def zero : Span := ⟨0⟩

/-- The whole seconds. -/
def seconds (d : Span) : Nat := d.nanos / 1000000000

/-- The nanoseconds after the whole seconds. -/
def subNanos (d : Span) : Nat := d.nanos % 1000000000

/-- The whole milliseconds. -/
def millis (d : Span) : Nat := d.nanos / 1000000

/-- The whole microseconds. -/
def micros (d : Span) : Nat := d.nanos / 1000

/-- The largest number of whole seconds of a span. -/
def maxSeconds : Nat := 0xFFFFFFFFFFFFFFFF

/-- The longest span. -/
def longest : Span := ⟨maxSeconds * 1000000000 + 999999999⟩

instance : LE Span := ⟨fun a b => a.nanos ≤ b.nanos⟩
instance : LT Span := ⟨fun a b => a.nanos < b.nanos⟩
instance (a b : Span) : Decidable (a ≤ b) := inferInstanceAs (Decidable (a.nanos ≤ b.nanos))
instance (a b : Span) : Decidable (a < b) := inferInstanceAs (Decidable (a.nanos < b.nanos))

/-- The sum, cut off at the longest span. -/
def add (a b : Span) : Span := ⟨min (a.nanos + b.nanos) longest.nanos⟩

/-- A multiple, cut off at the longest span. -/
def times (n : Nat) (d : Span) : Span := ⟨min (n * d.nanos) longest.nanos⟩

/-- The span in seconds, as a double. -/
def toFloat (d : Span) : Float :=
  (UInt64.ofNat d.seconds).toFloat + (UInt64.ofNat d.subNanos).toFloat / 1e9

/-- `whole` and a fraction of `places` digits without the zeros it ends with. -/
def decimalText (places whole fraction : Nat) : String :=
  let digits := Nat.toDigits 10 fraction
  let padded := List.replicate (places - digits.length) '0' ++ digits
  let kept := (padded.reverse.dropWhile (· == '0')).reverse
  toString whole ++ (if kept = [] then "" else "." ++ String.ofList kept)

/-- The diagnostic text. -/
def diagnostic (d : Span) : String :=
  let n := d.nanos
  if 1000000000 ≤ n then decimalText 9 (n / 1000000000) (n % 1000000000) ++ "s"
  else if 1000000 ≤ n then decimalText 6 (n / 1000000) (n % 1000000) ++ "ms"
  else if 1000 ≤ n then decimalText 3 (n / 1000) (n % 1000) ++ "µs"
  else toString n ++ "ns"

/-- The text in settings: milliseconds when there is a part of a second in milliseconds, else
seconds. -/
def settingText (d : Span) : String :=
  if d.millis % 1000 = 0 then toString d.seconds ++ "s" else toString d.millis ++ "ms"

/-- Why a text is no span. -/
inductive ReadError where
  /-- There are only digits. -/
  | noUnit (text : String)
  /-- There is no digit before the unit. -/
  | noDigits (text : String)
  /-- The number has more than 64 bits. -/
  | tooLarge (text : String)
  /-- The unit is not one of the four. -/
  | unknownUnit (text : String)
  deriving DecidableEq, Repr

/-- What is reported of it. -/
def ReadError.message : ReadError → String
  | noUnit s => s!"missing unit in duration '{s}' (use '500ms', '30s', '5m' or '1h')"
  | noDigits s => s!"invalid duration '{s}': cannot parse integer from empty string"
  | tooLarge s => s!"invalid duration '{s}': number too large to fit in target type"
  | unknownUnit s => s!"unknown duration format: '{s}' (use '500ms', '30s', '5m' or '1h')"

/-- Seconds from a number of longer units, cut off at the largest number of seconds. -/
def ofUnits (n seconds : Nat) : Span :=
  ofSeconds (min (n * seconds) maxSeconds)

/-- Reads digits and one of the units `ms`, `s`, `m` and `h`, blanks around and between them
skipped. -/
def read (s : String) : Except ReadError Span :=
  let cs := Text.trim s.toList
  let shown := String.ofList cs
  let digits := cs.takeWhile Char.isDigit
  let unit := cs.dropWhile Char.isDigit
  if unit = [] then .error (.noUnit shown)
  else if digits = [] then .error (.noDigits shown)
  else
    let n := Text.natOfDigits digits
    if maxSeconds < n then .error (.tooLarge shown)
    else
      match Text.trim unit with
      | ['m', 's'] => .ok (ofMillis n)
      | ['s'] => .ok (ofSeconds n)
      | ['m'] => .ok (ofUnits n 60)
      | ['h'] => .ok (ofUnits n 3600)
      | _ => .error (.unknownUnit shown)

end Span

end AdmissionWatch.Time
