import Mathlib.Algebra.GroupWithZero.Nat
import Mathlib.Data.List.TakeWhile
import AdmissionWatch.Proofs.Text.Digits
import AdmissionWatch.Proofs.Time.Calendar
import AdmissionWatch.Time.Reading

/-!
# Reading a time that was written

The parts of a time denote the instant at which clocks at its offset show them (`instant?_shifted`,
`shown_of_instant?`). So the text of an instant with its fraction is read back as that instant
(`readRelaxed?_preciseText`), leap seconds included, for the years that have four digits.
-/

namespace AdmissionWatch.Time

/-- Whether an instant is one that clocks show: less than a second after its second, or in the leap second
after the last one of a minute. -/
def Instant.Proper (t : Instant) : Prop :=
  t.nanos < 1000000000 ∨ t.nanos < 2000000000 ∧ t.seconds % 60 = 59

instance (t : Instant) : Decidable t.Proper :=
  inferInstanceAs (Decidable (_ ∨ _))

/-- Whether an instant is in the years that are written with four digits and no sign. -/
def Instant.HasPlainYear (t : Instant) : Prop :=
  0 ≤ t.date.year ∧ t.date.year ≤ 9999

instance (t : Instant) : Decidable t.HasPlainYear :=
  inferInstanceAs (Decidable (_ ∧ _))

/-! ## Numbers of a fixed width -/

variable {width n : Nat} {rest : List Char}

theorem isDigit_of_mem_padded {c : Char} (h : c ∈ padded width n) : c.isDigit = true := by
  unfold padded at h
  rcases List.mem_append.mp h with h | h
  · obtain ⟨-, rfl⟩ := List.mem_replicate.mp h
    rfl
  · exact Text.isDigit_of_mem_toDigits h

theorem length_padded (hwidth : 0 < width) (h : n < 10 ^ width) : (padded width n).length = width := by
  have hlength := (Nat.length_toDigits_le_iff (by decide) hwidth).mpr h
  unfold padded
  rw [List.length_append, List.length_replicate]
  omega

theorem exists_digit_padded (hwidth : 0 < width) (h : n < 10 ^ width) :
    ∃ c digits, padded width n = c :: digits ∧ c.isDigit = true := by
  have hlength := length_padded hwidth h
  cases hpadded : padded width n with
  | nil =>
    rw [hpadded, List.length_nil] at hlength
    omega
  | cons c digits => exact ⟨c, digits, rfl, isDigit_of_mem_padded (hpadded ▸ List.mem_cons_self ..)⟩

theorem natOfDigits_padded (width n : Nat) : Text.natOfDigits (padded width n) = n := by
  unfold padded Text.natOfDigits
  rw [Text.foldl_digits_eq, Nat.ofDigitChars_append, Nat.ofDigitChars_replicate_zero, Nat.mul_zero,
    Nat.ofDigitChars_ten_toDigits]

theorem number?_padded (hwidth : 0 < width) (h : n < 10 ^ width) (rest : List Char) :
    number? width (padded width n ++ rest) = some (n, rest) := by
  have htaken : ((padded width n ++ rest).take width).takeWhile Char.isDigit = padded width n := by
    rw [List.take_left' (length_padded hwidth h)]
    exact List.takeWhile_eq_self_iff.mpr fun c hc => isDigit_of_mem_padded hc
  obtain ⟨c, digits, hcons, -⟩ := exists_digit_padded hwidth h
  unfold number?
  rw [htaken]
  split
  · next hnil =>
    rw [hcons] at hnil
    cases hnil
  · rw [natOfDigits_padded, List.drop_left]

theorem isBlank_of_isDigit {c : Char} (h : c.isDigit = true) : Text.isBlank c = false := by
  rw [Char.isDigit_iff_toNat] at h
  obtain ⟨hleast, hmost⟩ : 48 ≤ c.toNat ∧ c.toNat ≤ 57 := h
  simp [Text.isBlank, Text.blankRanges]
  omega

theorem trimStart_padded (hwidth : 0 < width) (h : n < 10 ^ width) (rest : List Char) :
    Text.trimStart (padded width n ++ rest) = padded width n ++ rest := by
  obtain ⟨c, digits, hcons, hc⟩ := exists_digit_padded hwidth h
  rw [hcons]
  simp [Text.trimStart, isBlank_of_isDigit hc]

theorem part?_padded (h : n < 100) (rest : List Char) : part? (padded 2 n ++ rest) = some (n, rest) := by
  unfold part?
  rw [trimStart_padded (by decide) h, number?_padded (by decide) h]

theorem mark?_cons {c : Char} (h : Text.isBlank c = false) (rest : List Char) : mark? c (c :: rest) = some rest := by
  simp [mark?, Text.trimStart, h, after?]

/-! ## The parts of a time -/

theorem year?_padded (h : n < 10000) (rest : List Char) : year? (padded 4 n ++ rest) = some ((n : Int), rest) := by
  have hnumber : number? 4 (padded 4 n ++ rest) = some (n, rest) := number?_padded (by decide) h rest
  obtain ⟨c, digits, hcons, hc⟩ := exists_digit_padded (by decide : 0 < 4) h
  unfold year?
  split
  · next hminus =>
    rw [hcons] at hminus
    cases hminus
    cases hc
  · next hplus =>
    rw [hcons] at hplus
    cases hplus
    cases hc
  · rw [hnumber]
    rfl

/-- So many digits of a fraction are the nanoseconds in units of that size. -/
theorem nanos?_padded (hwidth : 0 < width) (hnine : width ≤ 9) (h : n < 10 ^ width) :
    nanos? ('.' :: (padded width n ++ ['Z'])) = some (n * 10 ^ (9 - width), ['Z']) := by
  have hlength := length_padded hwidth h
  have hdigits : (padded width n ++ ['Z']).takeWhile Char.isDigit = padded width n := by
    rw [List.takeWhile_append_of_pos fun c hc => isDigit_of_mem_padded hc]
    exact List.append_nil _
  have hnine : (padded width n).take 9 = padded width n := List.take_of_length_le (by omega)
  obtain ⟨c, digits, hcons, -⟩ := exists_digit_padded hwidth h
  simp only [nanos?, hdigits]
  split
  · next hnil =>
    rw [hcons] at hnil
    cases hnil
  · rw [hnine, hlength, natOfDigits_padded, List.drop_left' hlength]
    rfl

theorem nanos?_fractionText (t : Instant) : nanos? (t.fractionText ++ ['Z']) = some (t.nanos % 1000000000, ['Z']) := by
  have hlow : t.nanos % 1000000000 < 1000000000 := Nat.mod_lt _ (by decide)
  simp only [Instant.fractionText]
  generalize t.nanos % 1000000000 = n at hlow
  split
  · next hzero =>
    subst hzero
    rfl
  · split
    · rw [List.cons_append, nanos?_padded (by decide) (by decide) (by omega)]
      congr 2
      omega
    · split
      · rw [List.cons_append, nanos?_padded (by decide) (by decide) (by omega)]
        congr 2
        omega
      · rw [List.cons_append, nanos?_padded (by decide) (by decide) (by omega)]
        congr 2
        omega

/-! ## The calendar has the day, and the clock the time -/

variable {t : Instant} {days : Int}

theorem days_of_plainYear (h : t.HasPlainYear) : -800000 < t.seconds / 86400 ∧ t.seconds / 86400 < 4000000 := by
  obtain ⟨hleast, hmost⟩ : 0 ≤ (Date.ofDays (t.seconds / 86400)).year ∧
      (Date.ofDays (t.seconds / 86400)).year ≤ 9999 := h
  obtain ⟨y, d, ⟨hfirst, hlast, -, hdays⟩, heq⟩ := Date.exists_ofDays_eq (t.seconds / 86400)
  have hyear : -1 ≤ y ∧ y ≤ 9999 := by
    rw [heq] at hleast hmost
    simp only [Date.ofYearDay] at hleast hmost
    clear heq hdays
    split at hleast <;> omega
  omega

/-- The calendar begins long before the years of four digits and goes on for long after them. -/
theorem inCalendar_of_range (hleast : -800000 ≤ days) (hmost : days ≤ 4000000) : inCalendar days = true := by
  have hstart : Date.toDays ⟨yearRange.1, 1, 1⟩ ≤ -800000 := by decide
  have hend : 4000000 ≤ Date.toDays ⟨yearRange.2, 12, 31⟩ := by decide
  simp [inCalendar, Int.le_trans hstart hleast, Int.le_trans hmost hend]

/-- The second of a minute that is written, the sixtieth being a leap second, and what it tells of the
nanoseconds. -/
theorem second_cases (h : t.Proper) :
    (t.clock.2.2 = t.secondOfDay % 60 ∧ t.clock.2.2 < 60 ∧ t.nanos % 1000000000 = t.nanos) ∨
      (t.clock.2.2 = 60 ∧ t.secondOfDay % 60 = 59 ∧ t.nanos % 1000000000 + 1000000000 = t.nanos) := by
  unfold Instant.Proper at h
  simp only [Instant.clock, Instant.secondOfDay]
  by_cases hleap : t.nanos < 1000000000
  · exact .inl ⟨by omega, by omega, by omega⟩
  · exact .inr ⟨by omega, by omega, by omega⟩

theorem secondOfDay_eq (t : Instant) : (t.secondOfDay : Int) = t.seconds - t.seconds / 86400 * 86400 ∧
    t.secondOfDay < 86400 := by
  unfold Instant.secondOfDay
  omega

theorem clock_range (h : t.Proper) : t.clock.1 ≤ 23 ∧ t.clock.2.1 ≤ 59 ∧ t.clock.2.2 ≤ 60 := by
  obtain ⟨-, hlow⟩ := secondOfDay_eq t
  have hhour : t.clock.1 = t.secondOfDay / 3600 := rfl
  have hminute : t.clock.2.1 = t.secondOfDay / 60 % 60 := rfl
  rcases second_cases h with ⟨-, hs, -⟩ | ⟨hs, -, -⟩ <;> omega

/-- An instant is what its date and its clock tell of it, with the fraction of a second. -/
theorem eq_of_clock (h : t.Proper) :
    t.seconds = t.date.toDays * 86400 + t.clock.1 * 3600 + t.clock.2.1 * 60 +
        (if t.clock.2.2 = 60 then 59 else t.clock.2.2 : Nat) ∧
      t.nanos = t.nanos % 1000000000 + if t.clock.2.2 = 60 then 1000000000 else 0 := by
  have hday : t.date.toDays = t.seconds / 86400 := Date.toDays_ofDays _
  obtain ⟨hsecond, -⟩ := secondOfDay_eq t
  have hhour : t.clock.1 = t.secondOfDay / 3600 := rfl
  have hminute : t.clock.2.1 = t.secondOfDay / 60 % 60 := rfl
  rcases second_cases h with ⟨hclock, hs, hnanos⟩ | ⟨hclock, hs, hnanos⟩
  · rw [if_neg (Nat.ne_of_lt hs), if_neg (Nat.ne_of_lt hs), hday]
    omega
  · rw [if_pos hclock, if_pos hclock, hday]
    omega

theorem clock_of_parts {hour minute second : Nat} (hhour : hour ≤ 23) (hminute : minute ≤ 59)
    (hsecond : second ≤ 59) (h : t.seconds = days * 86400 + hour * 3600 + minute * 60 + second) :
    t.date = Date.ofDays days ∧ t.clock = (hour, minute, second + t.nanos / 1000000000) := by
  have hday : t.seconds / 86400 = days := by omega
  have hrest : t.secondOfDay = hour * 3600 + minute * 60 + second := by
    unfold Instant.secondOfDay
    omega
  simp only [Instant.date, hday, Instant.clock, hrest, Prod.mk.injEq, true_and]
  omega

/-! ## Clocks at an offset from UTC -/

/-- The instant at which clocks in UTC show what clocks at that offset show at this one. -/
def Instant.shifted (t : Instant) (offset : Int) : Instant :=
  ⟨t.seconds + offset, t.nanos⟩

variable {offset : Int}

theorem Instant.shifted_zero (t : Instant) : t.shifted 0 = t := by
  rw [shifted, Int.add_zero]

/-- An offset of whole minutes leaves leap seconds at the ends of minutes. -/
theorem Instant.proper_shifted_iff (hoffset : offset % 60 = 0) : (t.shifted offset).Proper ↔ t.Proper := by
  simp only [Instant.Proper, Instant.shifted]
  omega

/-- The parts that clocks at an offset show of an instant denote it. -/
theorem instant?_shifted (h : t.Proper) (hoffset : offset % 60 = 0) (hrange : offset.natAbs < 86400)
    (hyear : (t.shifted offset).HasPlainYear) :
    Written.instant?
        { date := (t.shifted offset).date, hour := (t.shifted offset).clock.1,
          minute := (t.shifted offset).clock.2.1, second := (t.shifted offset).clock.2.2,
          nanos := t.nanos % 1000000000, offset } = some t := by
  have hproper := (Instant.proper_shifted_iff hoffset).mpr h
  obtain ⟨hhour, hminute, hsecond⟩ := clock_range hproper
  obtain ⟨hseconds, hnanos⟩ := eq_of_clock hproper
  obtain ⟨hleast, hmost⟩ := days_of_plainYear hyear
  have hday : (t.shifted offset).date.toDays = (t.shifted offset).seconds / 86400 := Date.toDays_ofDays _
  have hvalid : (t.shifted offset).date.valid = true := Date.valid_ofDays _
  have hlocal : inCalendar (t.shifted offset).date.toDays = true := inCalendar_of_range (by omega) (by omega)
  have hcalendar : inCalendar (t.seconds / 86400) = true := by
    have hshifted : (t.shifted offset).seconds = t.seconds + offset := rfl
    exact inCalendar_of_range (by omega) (by omega)
  unfold Written.instant?
  simp only [hvalid, hlocal, hhour, hminute, hsecond, hrange, true_and, if_true]
  rw [← hseconds, show (t.shifted offset).seconds - offset = t.seconds from Int.add_sub_cancel _ _, if_pos hcalendar]
  exact congrArg (fun n => some (Instant.mk t.seconds n)) hnanos.symm

theorem offset_lt_of_instant? {w : Written} (h : w.instant? = some t) : w.offset.natAbs < 86400 := by
  unfold Written.instant? at h
  obtain ⟨⟨-, -, -, -, -, hrange⟩, -⟩ := Option.ite_none_right_eq_some.mp h
  exact hrange

/-- The parts of a time denote an instant of which clocks at its offset show them. -/
theorem shown_of_instant? {w : Written} (hnanos : w.nanos < 1000000000) (hoffset : w.offset % 60 = 0)
    (h : w.instant? = some t) : t.Proper ∧ (t.shifted w.offset).date = w.date ∧
      (t.shifted w.offset).clock = (w.hour, w.minute, w.second) ∧ t.nanos % 1000000000 = w.nanos := by
  obtain ⟨date, hour, minute, second, nanos, offset⟩ := w
  unfold Written.instant? at h
  obtain ⟨⟨hvalid, -, hhour, hminute, hsecond, -⟩, h⟩ := Option.ite_none_right_eq_some.mp h
  obtain ⟨-, h⟩ := Option.ite_none_right_eq_some.mp h
  obtain rfl := Option.some.inj h
  dsimp only at hnanos hoffset hvalid hhour hminute hsecond ⊢
  -- A leap second is the second before it with a second more of nanoseconds.
  obtain ⟨hlast, hshown, hleap⟩ : (if second = 60 then 59 else second) ≤ 59 ∧
      (if second = 60 then 59 else second) + (nanos + if second = 60 then 1000000000 else 0) / 1000000000 = second ∧
      ((if second = 60 then 1000000000 else 0) = 0 ∨
        (if second = 60 then 1000000000 else 0) = 1000000000 ∧ (if second = 60 then 59 else second) = 59) := by
    split <;> omega
  generalize (if second = 60 then 59 else second) = s at hlast hshown hleap ⊢
  generalize (if second = 60 then 1000000000 else 0) = extra at hshown hleap ⊢
  obtain ⟨hdate, hclock⟩ := @clock_of_parts
    (Instant.shifted ⟨date.toDays * 86400 + hour * 3600 + minute * 60 + s - offset, nanos + extra⟩ offset)
    date.toDays hour minute s hhour hminute hlast (Int.sub_add_cancel _ _)
  refine ⟨?_, hdate.trans (Date.ofDays_toDays hvalid), hclock.trans ?_, by omega⟩
  · simp only [Instant.Proper]
    omega
  · rw [← hshown]
    rfl

/-! ## Whole texts -/

theorem upToSeconds_eq (hyear : t.HasPlainYear) :
    t.upToSeconds = padded 4 t.date.year.toNat ++ '-' :: (padded 2 t.date.month ++ '-' ::
      (padded 2 t.date.day ++ 'T' ::
      (padded 2 t.clock.1 ++ ':' :: (padded 2 t.clock.2.1 ++ ':' :: padded 2 t.clock.2.2)))) := by
  have hyear : 0 ≤ t.date.year ∧ t.date.year ≤ 9999 := hyear
  simp [Instant.upToSeconds, yearText, hyear]

theorem monthLength_le (year : Int) (month : Nat) : monthLength year month ≤ 31 := by
  unfold monthLength
  split
  · split <;> decide
  all_goals decide

/-- No part of a time needs more than two digits. -/
theorem parts_lt (h : t.Proper) : t.date.month < 100 ∧ t.date.day < 100 ∧ t.clock.1 < 100 ∧ t.clock.2.1 < 100 ∧
    t.clock.2.2 < 100 := by
  have hvalid : t.date.valid = true := Date.valid_ofDays _
  have hlength := monthLength_le t.date.year t.date.month
  have hclock := clock_range h
  simp only [Date.valid, Bool.and_eq_true, decide_eq_true_eq] at hvalid
  omega

theorem readRelaxed?_preciseText (h : t.Proper) (hyear : t.HasPlainYear) : readRelaxed? t.preciseText = some t := by
  obtain ⟨hmonth, hday, hhour, hminute, hsecond⟩ := parts_lt h
  have hdigits : t.date.year.toNat < 10000 := by
    obtain ⟨-, hmost⟩ := hyear
    omega
  have hcast : (t.date.year.toNat : Int) = t.date.year := Int.toNat_of_nonneg hyear.1
  have hmark : ∀ rest, afterDate? ('T' :: rest) = some rest := fun _ => rfl
  have hzone : relaxedOffset? (Text.trimStart ['Z']) = some (0, []) := by decide
  unfold readRelaxed? Instant.preciseText relaxed?
  rw [String.toList_ofList, upToSeconds_eq hyear]
  simp only [List.append_assoc, List.cons_append]
  rw [trimStart_padded (by decide) hdigits, year?_padded hdigits]
  simp only [Option.bind_eq_bind, Option.bind_some, mark?_cons (by decide : Text.isBlank '-' = false),
    mark?_cons (by decide : Text.isBlank ':' = false), part?_padded hmonth, part?_padded hday, hmark,
    part?_padded hhour, part?_padded hminute, part?_padded hsecond, nanos?_fractionText, hzone, hcast]
  rw [if_pos (by rfl)]
  have hzero : (0 : Int).natAbs < 86400 := by decide
  have hparts := instant?_shifted h rfl hzero (t.shifted_zero.symm ▸ hyear)
  rwa [t.shifted_zero] at hparts

end AdmissionWatch.Time
