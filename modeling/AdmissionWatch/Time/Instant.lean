import AdmissionWatch.Time.Calendar

/-!
# Instants and their text

An instant is a number of seconds since 1970-01-01T00:00:00Z and a number of nanoseconds. A leap
second is the second before it with a full second of nanoseconds more, so that it is written `:60`
and counts as the same second.
-/

namespace AdmissionWatch.Time

/-- A point in time. -/
structure Instant where
  seconds : Int
  nanos : Nat
  deriving DecidableEq, Repr, Inhabited

/-- A number with at least `width` digits. -/
def padded (width n : Nat) : List Char :=
  let digits := Nat.toDigits 10 n
  List.replicate (width - digits.length) '0' ++ digits

/-- A year: four digits, or a sign and at least four when it is not in the years 0 to 9999. -/
def yearText (year : Int) : List Char :=
  if 0 ≤ year ∧ year ≤ 9999 then padded 4 year.toNat
  else if year < 0 then '-' :: padded 4 (-year).toNat
  else '+' :: padded 4 year.toNat

namespace Instant

/-- The instant that many milliseconds after the epoch. -/
def ofMillis (ms : Int) : Instant :=
  ⟨ms / 1000, (ms % 1000).toNat * 1000000⟩

/-- The whole milliseconds since the epoch. -/
def millis (t : Instant) : Int :=
  t.seconds * 1000 + (t.nanos / 1000000 : Nat)

/-- The date. -/
def date (t : Instant) : Date :=
  Date.ofDays (t.seconds / 86400)

/-- The second of the day. -/
def secondOfDay (t : Instant) : Nat :=
  (t.seconds % 86400).toNat

/-- Hour, minute and second; a leap second is the sixtieth. -/
def clock (t : Instant) : Nat × Nat × Nat :=
  let s := t.secondOfDay
  (s / 3600, s / 60 % 60, s % 60 + t.nanos / 1000000000)

/-- The date and the time of day up to whole seconds, as RFC 3339 writes them. -/
def upToSeconds (t : Instant) : List Char :=
  let d := t.date
  let (hour, minute, second) := t.clock
  yearText d.year ++ '-' :: padded 2 d.month ++ '-' :: padded 2 d.day ++ 'T' :: padded 2 hour ++
    ':' :: padded 2 minute ++ ':' :: padded 2 second

/-- The fraction of a second with as few groups of three digits as it needs. -/
def fractionText (t : Instant) : List Char :=
  let n := t.nanos % 1000000000
  if n = 0 then []
  else if n % 1000000 = 0 then '.' :: padded 3 (n / 1000000)
  else if n % 1000 = 0 then '.' :: padded 6 (n / 1000)
  else '.' :: padded 9 n

/-- RFC 3339 in UTC with whole seconds. -/
def text (t : Instant) : String :=
  String.ofList (t.upToSeconds ++ ['Z'])

/-- RFC 3339 in UTC with the fraction of a second. -/
def preciseText (t : Instant) : String :=
  String.ofList (t.upToSeconds ++ t.fractionText ++ ['Z'])

/-- The date in its basic form, eight digits for the years up to 9999. -/
def basicDate (t : Instant) : String :=
  let d := t.date
  String.ofList (yearText d.year ++ padded 2 d.month ++ padded 2 d.day)

/-- The date and time in their basic form. -/
def basicText (t : Instant) : String :=
  let (hour, minute, second) := t.clock
  t.basicDate ++ String.ofList ('T' :: padded 2 hour ++ padded 2 minute ++ padded 2 second ++ ['Z'])

end Instant

end AdmissionWatch.Time
