import AdmissionWatch.Decimal.Power
import AdmissionWatch.Text.Blank
import AdmissionWatch.Text.Digits
import AdmissionWatch.Time.Instant

/-!
# Reading times

Two readers of RFC 3339. The strict one wants two digits for each part, four for the year, and an
offset with a colon. The relaxed one also takes one digit where two are usual, a sign before the
year, blanks between the parts, `UTC`, and an offset without a colon. Both take `T`, `t` or a space
between date and time, `Z` or `z`, a leap second, and any number of digits of a fraction, of which
nine count.
-/

namespace AdmissionWatch.Time

/-- A number of at least one and at most `most` digits, and the rest. -/
def number? (most : Nat) (s : List Char) : Option (Nat × List Char) :=
  match (s.take most).takeWhile Char.isDigit with
  | [] => none
  | digits => some (Text.natOfDigits digits, s.drop digits.length)

/-- A number of exactly `width` digits, and the rest. -/
def fixedNumber? (width : Nat) (s : List Char) : Option (Nat × List Char) :=
  let digits := s.take width
  if digits.length = width ∧ digits.all Char.isDigit then some (Text.natOfDigits digits, s.drop width) else none

/-- What follows the character `c`. -/
def after? (c : Char) : List Char → Option (List Char)
  | d :: rest => if d = c then some rest else none
  | [] => none

/-- What follows the mark between date and time. -/
def afterDate? : List Char → Option (List Char)
  | c :: rest => if c = 't' ∨ c = 'T' ∨ c = ' ' then some rest else none
  | [] => none

/-- The nanoseconds after a point, if there is a point. Digits past the ninth are skipped. -/
def nanos? : List Char → Option (Nat × List Char)
  | '.' :: rest =>
    match rest.takeWhile Char.isDigit with
    | [] => none
    | digits =>
      let nine := digits.take 9
      some (Text.natOfDigits nine * Decimal.tenTo (9 - nine.length), rest.drop digits.length)
  | s => some (0, s)

/-- The parts of a time as written: a date, a time of day and an offset from UTC in seconds. -/
structure Written where
  date : Date
  hour : Nat
  minute : Nat
  second : Nat
  nanos : Nat
  offset : Int
  deriving Repr

/-- The first and the last year of the calendar. -/
def yearRange : Int × Int := (-262143, 262142)

/-- Whether the calendar has the day that many days after the epoch. -/
def inCalendar (day : Int) : Bool :=
  Date.toDays ⟨yearRange.1, 1, 1⟩ ≤ day && day ≤ Date.toDays ⟨yearRange.2, 12, 31⟩

/-- The instant that the parts denote, when the calendar and the clock have them and the calendar
has the day on which it is in UTC. -/
def Written.instant? (w : Written) : Option Instant :=
  if w.date.valid ∧ inCalendar w.date.toDays ∧ w.hour ≤ 23 ∧ w.minute ≤ 59 ∧ w.second ≤ 60 ∧
      w.offset.natAbs < 86400 then
    let leap := w.second = 60
    let second := if leap then 59 else w.second
    let seconds := w.date.toDays * 86400 + w.hour * 3600 + w.minute * 60 + second - w.offset
    if inCalendar (seconds / 86400) then some ⟨seconds, w.nanos + (if leap then 1000000000 else 0)⟩ else none
  else none

/-- The minus signs of an offset: the hyphen and the mathematical one. -/
def isMinus (c : Char) : Bool :=
  c = '-' || c = '\u2212'

/-- An offset from UTC in seconds, its colon or what stands in its place skipped by `colon?`. -/
def offset? (colon? : List Char → Option (List Char)) (s : List Char) : Option (Int × List Char) :=
  match s with
  | 'Z' :: rest | 'z' :: rest => some (0, rest)
  | c :: rest =>
    if c = '+' ∨ isMinus c then do
      let (hours, rest) ← fixedNumber? 2 rest
      let rest ← colon? rest
      let (minutes, rest) ← fixedNumber? 2 rest
      if 59 < minutes then none
      else
        let seconds : Int := hours * 3600 + minutes * 60
        return (if c = '+' then seconds else -seconds, rest)
    else none
  | [] => none

/-- Reads strictly. -/
def strict? (s : List Char) : Option Instant := do
  let (year, s) ← fixedNumber? 4 s
  let s ← after? '-' s
  let (month, s) ← fixedNumber? 2 s
  let s ← after? '-' s
  let (day, s) ← fixedNumber? 2 s
  let s ← afterDate? s
  let (hour, s) ← fixedNumber? 2 s
  let s ← after? ':' s
  let (minute, s) ← fixedNumber? 2 s
  let s ← after? ':' s
  let (second, s) ← fixedNumber? 2 s
  let (nanos, s) ← nanos? s
  let (offset, s) ← offset? (after? ':') s
  if s = [] then
    Written.instant? { date := ⟨year, month, day⟩, hour, minute, second, nanos, offset }
  else none

/-- The first number past the signed 64-bit range. -/
def signedLimit : Nat := 0x8000000000000000

/-- A year of at most four digits, or of any number of digits after a sign. -/
def year? (s : List Char) : Option (Int × List Char) :=
  match s with
  | '-' :: rest => signed rest (-1)
  | '+' :: rest => signed rest 1
  | s => (number? 4 s).map fun (n, r) => ((n : Int), r)
where
  /-- The digits after a sign. -/
  signed (rest : List Char) (sign : Int) : Option (Int × List Char) :=
    match number? rest.length rest with
    | some (n, r) => if n < signedLimit then some (sign * n, r) else none
    | none => none

/-- Blanks, then a number of one or two digits. -/
def part? (s : List Char) : Option (Nat × List Char) :=
  number? 2 (Text.trimStart s)

/-- Blanks, then the character `c`. -/
def mark? (c : Char) (s : List Char) : Option (List Char) :=
  after? c (Text.trimStart s)

/-- Skips colons and blanks. -/
def colons? (s : List Char) : Option (List Char) :=
  some (s.dropWhile fun c => c = ':' || Text.isBlank c)

/-- The offset of the relaxed reader. -/
def relaxedOffset? (s : List Char) : Option (Int × List Char) :=
  if (s.take 3).map Char.toUpper = ['U', 'T', 'C'] then some (0, s.drop 3) else offset? colons? s

/-- Reads in the relaxed way. -/
def relaxed? (s : List Char) : Option Instant := do
  let (year, s) ← year? (Text.trimStart s)
  let s ← mark? '-' s
  let (month, s) ← part? s
  let s ← mark? '-' s
  let (day, s) ← part? s
  let s ← afterDate? s
  let (hour, s) ← part? s
  let s ← mark? ':' s
  let (minute, s) ← part? s
  let s ← mark? ':' s
  let (second, s) ← part? s
  let (nanos, s) ← nanos? s
  let (offset, s) ← relaxedOffset? (Text.trimStart s)
  if Text.trimStart s = [] then
    Written.instant? { date := ⟨year, month, day⟩, hour, minute, second, nanos, offset }
  else none

/-- Reads a string strictly. -/
def readStrict? (s : String) : Option Instant :=
  strict? s.toList

/-- Reads a string in the relaxed way. -/
def readRelaxed? (s : String) : Option Instant :=
  relaxed? s.toList

end AdmissionWatch.Time
