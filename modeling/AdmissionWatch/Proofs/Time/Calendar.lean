import AdmissionWatch.Time.Calendar

/-!
# The dates of days

The date of a day is one that the calendar has, and the day of that date is the day again
(`valid_ofDays`, `toDays_ofDays`); the other way round, every date that the calendar has is the date of
its day (`ofDays_toDays`). All is shown by the years that start in March: a day is the `d`-th of the
`y`-th such year (`IsDayOf`), and of no other.
-/

namespace AdmissionWatch.Time.Date

/-- Whether a number of days after 1970-01-01 is the `d`-th day, counted from zero, of the year `y` that
starts in March. -/
structure IsDayOf (days y d : Int) : Prop where
  first : 0 ≤ d
  last : d ≤ 365
  leap : d = 365 → isLeap (y + 1) = true
  days : days = 365 * y + y / 4 - y / 100 + y / 400 + d - 719468

/-- The date of the `d`-th day of the year `y` that starts in March. -/
def ofYearDay (y d : Int) : Date :=
  let m := (5 * d + 2) / 153
  ⟨y + (if m < 10 then 0 else 1), (if m < 10 then m + 3 else m - 9).toNat, (d - (153 * m + 2) / 5 + 1).toNat⟩

/-- An era has four centuries of 25 times four years; only the last day of four years, and of those that
end a century only the last of the era, is the 366th of its year. -/
theorem exists_parts {z : Int} (hleast : 0 ≤ z) (hmost : z < 146097) :
    ∃ c b a d : Int, (0 ≤ c ∧ c ≤ 3) ∧ (0 ≤ b ∧ b ≤ 24) ∧
    (0 ≤ a ∧ a ≤ 3) ∧ (0 ≤ d ∧ d ≤ 365) ∧ (d = 365 → a = 3 ∧ (b = 24 → c = 3)) ∧
    z = 36524 * c + 1461 * b + 365 * a + d := by
  let c := min (z / 36524) 3
  let b := (z - 36524 * c) / 1461
  let a := min ((z - 36524 * c - 1461 * b) / 365) 3
  exact ⟨c, b, a, z - 36524 * c - 1461 * b - 365 * a, by omega, by omega, by omega, by omega, by omega, by omega⟩

theorem centuryOfEra {c r z : Int} (hc : 0 ≤ c ∧ c ≤ 3) (hr : 0 ≤ r ∧ r ≤ 36524)
    (hlast : r = 36524 → c = 3) (hz : z = 36524 * c + r) : z / 36524 - z / 146096 = c := by
  by_cases h : r = 36524
  · obtain rfl := hlast h
    omega
  · omega

theorem yearOfEra {c b a d z : Int} (hc : 0 ≤ c ∧ c ≤ 3) (hb : 0 ≤ b ∧ b ≤ 24) (ha : 0 ≤ a ∧ a ≤ 3)
    (hd : 0 ≤ d ∧ d ≤ 365) (hleap : d = 365 → a = 3 ∧ (b = 24 → c = 3))
    (hz : z = 36524 * c + 1461 * b + 365 * a + d) :
    (z - z / 1460 + z / 36524 - z / 146096) / 365 = 100 * c + 4 * b + a := by
  have hfour : z / 1460 = 25 * c + b + (24 * c + b + 365 * a + d) / 1460 := by omega
  have hcentury : z / 36524 - z / 146096 = c :=
    centuryOfEra (r := 1461 * b + 365 * a + d) hc (by omega) (by omega) (by omega)
  -- A day is taken off from the last of four years on, and so the 366th of a year does not begin another.
  have hrest : (24 * c + b + 365 * a + d) / 1460 = 0 ∧ d ≤ 364 ∨
      (24 * c + b + 365 * a + d) / 1460 = 1 ∧ 1 ≤ d := by
    by_cases h : 24 * c + b + 365 * a + d < 1460
    · exact .inl ⟨by omega, by omega⟩
    · exact .inr ⟨by omega, by omega⟩
  have hsum : z - z / 1460 + z / 36524 - z / 146096 =
      365 * (100 * c + 4 * b + a) + (d - (24 * c + b + 365 * a + d) / 1460) := by
    rw [Int.add_sub_assoc, hcentury, hfour, hz]
    generalize (24 * c + b + 365 * a + d) / 1460 = x
    omega
  rw [hsum]
  generalize (24 * c + b + 365 * a + d) / 1460 = x at hrest
  omega

theorem leapDays {c b a : Int} (hc : 0 ≤ c ∧ c ≤ 3) (hb : 0 ≤ b ∧ b ≤ 24) (ha : 0 ≤ a ∧ a ≤ 3)
    (e : Int) :
    (100 * c + 4 * b + a + 400 * e) / 4 = 25 * c + b + 100 * e ∧ (100 * c + 4 * b + a + 400 * e) / 100 = c + 4 * e ∧
      (100 * c + 4 * b + a + 400 * e) / 400 = e := by
  exact ⟨by omega, by omega, by omega⟩

theorem dayOfYear {c b a d z : Int} (hc : 0 ≤ c ∧ c ≤ 3) (hb : 0 ≤ b ∧ b ≤ 24) (ha : 0 ≤ a ∧ a ≤ 3)
    (hz : z = 36524 * c + 1461 * b + 365 * a + d) :
    z - (365 * (100 * c + 4 * b + a) + (100 * c + 4 * b + a) / 4 - (100 * c + 4 * b + a) / 100) = d := by
  obtain ⟨hfour, hcentury, -⟩ := leapDays hc hb ha 0
  rw [Int.mul_zero, Int.add_zero] at hfour hcentury
  rw [hfour, hcentury]
  omega

theorem isLeap_of_last {c b e : Int} (hc : 0 ≤ c ∧ c ≤ 3) (hb : 0 ≤ b ∧ b ≤ 24) (hlast : b = 24 → c = 3) :
    isLeap (100 * c + 4 * b + 3 + 400 * e + 1) = true := by
  have hfour : (100 * c + 4 * b + 3 + 400 * e + 1) % 4 = 0 := by omega
  have hcentury : (100 * c + 4 * b + 3 + 400 * e + 1) % 100 ≠ 0 ∨
      (100 * c + 4 * b + 3 + 400 * e + 1) % 400 = 0 := by
    by_cases h : b = 24
    · obtain rfl := hlast h
      exact .inr (by omega)
    · exact .inl (by omega)
  simpa [isLeap, hfour] using hcentury

theorem exists_ofDays_eq (days : Int) : ∃ y d, IsDayOf days y d ∧ ofDays days = ofYearDay y d := by
  obtain ⟨e, z, hsplit, hera, hday, hleast, hmost⟩ :
      ∃ e z, days + 719468 = 146097 * e + z ∧ (days + 719468) / 146097 = e ∧
      (days + 719468) % 146097 = z ∧ 0 ≤ z ∧ z < 146097 :=
    ⟨_, _, (Int.mul_ediv_add_emod ..).symm, rfl, rfl, Int.emod_nonneg _ (by decide),
      Int.emod_lt_of_pos _ (by decide)⟩
  obtain ⟨c, b, a, d, hc, hb, ha, hd, hleap, hz⟩ := exists_parts hleast hmost
  obtain ⟨hfour, hcentury, hyears⟩ := leapDays hc hb ha e
  refine ⟨100 * c + 4 * b + a + 400 * e, d, ⟨hd.1, hd.2, fun h => ?_, ?_⟩, ?_⟩
  · obtain ⟨rfl, hlast⟩ := hleap h
    exact isLeap_of_last hc hb hlast
  · rw [hfour, hcentury, hyears]
    clear hera hday hfour hcentury hyears
    omega
  · have hmonth : 0 ≤ (5 * d + 2) / 153 ∧ (5 * d + 2) / 153 ≤ 11 := by
      clear hera hday hfour hcentury hyears
      omega
    unfold ofDays ofYearDay
    simp only [hera, hday, yearOfEra hc hb ha hd hleap hz, dayOfYear hc hb ha hz]
    generalize (5 * d + 2) / 153 = m at hmonth
    by_cases hm : m < 10
    · have hlate : ¬m + 3 ≤ 2 := by omega
      simp only [hm, if_true, hlate, if_false, Int.mul_comm e 400]
    · have hearly : m - 9 ≤ 2 := by omega
      simp only [hm, if_false, hearly, if_true, Int.mul_comm e 400]

/-! ## The day of a date, and the date in the calendar -/

variable {days y d : Int}

/-- Months counted from March, as the calendar numbers them. -/
theorem month_of_march {m : Int} (hm : 0 ≤ m ∧ m ≤ 11) :
    ((if m < 10 then m + 3 else m - 9).toNat ≤ 2 ↔ ¬m < 10) ∧
    ((((if m < 10 then m + 3 else m - 9).toNat + 9) % 12 : Nat) : Int) = m := by
  by_cases h : m < 10
  · rw [if_pos h]
    omega
  · rw [if_neg h]
    omega

theorem month_range (hfirst : 0 ≤ d) (hlast : d ≤ 365) : (0 ≤ (5 * d + 2) / 153 ∧ (5 * d + 2) / 153 ≤ 11) ∧
    1 ≤ d - (153 * ((5 * d + 2) / 153) + 2) / 5 + 1 := by
  omega

theorem toDays_ofYearDay (h : IsDayOf days y d) : (ofYearDay y d).toDays = days := by
  obtain ⟨hfirst, hlast, -, rfl⟩ := h
  obtain ⟨hm, hday⟩ := month_range hfirst hlast
  obtain ⟨hearly, hmarch⟩ := month_of_march hm
  unfold toDays ofYearDay
  simp only [hearly, hmarch, Int.toNat_of_nonneg (Int.le_trans (by decide) hday)]
  generalize (5 * d + 2) / 153 = m
  by_cases hm : m < 10
  · simp only [hm, not_true, if_false, if_true, Int.add_zero]
    omega
  · simp only [hm, not_false_eq_true, if_false, if_true, Int.add_sub_cancel]
    omega

/-- The length of a month counted from March, February apart. -/
theorem length_of_march {m : Int} (hm : 0 ≤ m ∧ m ≤ 10) (year : Int) :
    (monthLength year (if m < 10 then m + 3 else m - 9).toNat : Int) = (153 * (m + 1) + 2) / 5 - (153 * m + 2) / 5 := by
  have hcases : m = 0 ∨ m = 1 ∨ m = 2 ∨ m = 3 ∨ m = 4 ∨ m = 5 ∨ m = 6 ∨ m = 7 ∨ m = 8 ∨ m = 9 ∨
      m = 10 := by omega
  rcases hcases with rfl | rfl | rfl | rfl | rfl | rfl | rfl | rfl | rfl | rfl | rfl <;> rfl

theorem day_le_monthLength (h : IsDayOf days y d) :
    (ofYearDay y d).day ≤ monthLength (ofYearDay y d).year (ofYearDay y d).month := by
  obtain ⟨hfirst, hlast, hleap, -⟩ := h
  obtain ⟨hm, hday⟩ := month_range hfirst hlast
  by_cases hfebruary : (5 * d + 2) / 153 = 11
  · simp only [ofYearDay, hfebruary]
    show (d - 337 + 1).toNat ≤ if isLeap (y + 1) then 29 else 28
    by_cases hd : d = 365
    · rw [if_pos (hleap hd)]
      omega
    · split <;> omega
  · have hlength := length_of_march ⟨hm.1, by omega⟩ (ofYearDay y d).year
    simp only [ofYearDay] at hlength ⊢
    omega

theorem valid_ofYearDay (h : IsDayOf days y d) : (ofYearDay y d).valid = true := by
  obtain ⟨hm, hday⟩ := month_range h.first h.last
  have hmonth : 1 ≤ (ofYearDay y d).month ∧ (ofYearDay y d).month ≤ 12 := by
    simp only [ofYearDay]
    generalize (5 * d + 2) / 153 = m at hm
    by_cases h : m < 10
    · simp only [if_pos h]
      omega
    · simp only [if_neg h]
      omega
  have hone : 1 ≤ (ofYearDay y d).day := by
    simp only [ofYearDay]
    omega
  simp [valid, hmonth, hone, day_le_monthLength h]

theorem toDays_ofDays (days : Int) : (ofDays days).toDays = days := by
  obtain ⟨y, d, h, heq⟩ := exists_ofDays_eq days
  rw [heq, toDays_ofYearDay h]

theorem valid_ofDays (days : Int) : (ofDays days).valid = true := by
  obtain ⟨y, d, h, heq⟩ := exists_ofDays_eq days
  rw [heq, valid_ofYearDay h]

/-! ## The date of the day of a date -/

variable {y' d' : Int}

theorem IsDayOf.year_le (h : IsDayOf days y d) (h' : IsDayOf days y' d') : y ≤ y' := by
  rw [← Int.not_lt]
  intro hlt
  have hnext : 365 * y' + y' / 4 - y' / 100 + y' / 400 + d' <
      365 * (y' + 1) + (y' + 1) / 4 - (y' + 1) / 100 + (y' + 1) / 400 := by
    obtain ⟨-, hlast, hleap, -⟩ := h'
    by_cases hd : d' = 365
    · have hleap := hleap hd
      simp only [isLeap, Bool.and_eq_true, Bool.or_eq_true, beq_iff_eq, bne_iff_ne] at hleap
      omega
    · omega
  have hmono : 365 * (y' + 1) + (y' + 1) / 4 - (y' + 1) / 100 + (y' + 1) / 400 ≤
      365 * y + y / 4 - y / 100 + y / 400 := by
    omega
  have hfirst := h.first
  have hdays := h.days
  have hdays' := h'.days
  omega

theorem IsDayOf.unique (h : IsDayOf days y d) (h' : IsDayOf days y' d') : y = y' ∧ d = d' := by
  obtain rfl : y = y' := Int.le_antisymm (h.year_le h') (h'.year_le h)
  have hdays := h.days
  have hdays' := h'.days
  omega

/-- A day of a month counted from March is a day of no other month. -/
theorem march_of_day {m day : Int} (hfirst : 1 ≤ day)
    (hlast : day ≤ if m = 11 then 29 else (153 * (m + 1) + 2) / 5 - (153 * m + 2) / 5) :
    (5 * ((153 * m + 2) / 5 + day - 1) + 2) / 153 = m := by
  split at hlast <;> omega

/-- The months of the calendar, as they are counted from March. -/
theorem march_of_month {month : Nat} (hmonth : 1 ≤ month ∧ month ≤ 12) :
    ∃ m : Int, (0 ≤ m ∧ m ≤ 11) ∧ (((month + 9) % 12 : Nat) : Int) = m ∧
      (if m < 10 then m + 3 else m - 9).toNat = month ∧ (month ≤ 2 ↔ ¬m < 10) := by
  refine ⟨((month + 9) % 12 : Nat), by omega, rfl, ?_, by omega⟩
  split <;> omega

theorem exists_yearDay {date : Date} (h : date.valid = true) :
    ∃ y d, IsDayOf date.toDays y d ∧ ofYearDay y d = date := by
  obtain ⟨year, month, day⟩ := date
  simp only [valid, Bool.and_eq_true, decide_eq_true_eq] at h
  obtain ⟨⟨hmonth, hday⟩, hlength⟩ := h
  obtain ⟨m, hm, hmarch, hback, hearly⟩ := march_of_month hmonth
  have hlast : (day : Int) ≤ if m = 11 then 29 else (153 * (m + 1) + 2) / 5 - (153 * m + 2) / 5 := by
    split
    · obtain rfl : month = 2 := by omega
      simp only [monthLength] at hlength
      split at hlength <;> omega
    · have hmarch := length_of_march (m := m) (by omega) year
      rw [hback] at hmarch
      omega
  have hsame := march_of_day (by omega) hlast
  refine ⟨if month ≤ 2 then year - 1 else year, (153 * m + 2) / 5 + day - 1, ⟨?_, ?_, ?_, ?_⟩, ?_⟩
  · omega
  · split at hlast <;> omega
  · intro hleap
    obtain rfl : month = 2 := by split at hlast <;> omega
    simp only [monthLength] at hlength
    rw [if_pos (by decide), Int.sub_add_cancel]
    split at hlength
    · assumption
    · split at hlast <;> omega
  · simp only [toDays, hmarch]
  · have hfirst : ((153 * m + 2) / 5 + (day : Int) - 1 - (153 * m + 2) / 5 + 1).toNat = day := by omega
    unfold ofYearDay
    simp only [hsame, hback, hfirst, Date.mk.injEq, and_true]
    by_cases hearlier : m < 10 <;> simp [hearly, hearlier]

theorem ofDays_toDays {date : Date} (h : date.valid = true) : ofDays date.toDays = date := by
  obtain ⟨y, d, hday, hdate⟩ := exists_yearDay h
  obtain ⟨y', d', hday', hdate'⟩ := exists_ofDays_eq date.toDays
  obtain ⟨rfl, rfl⟩ := hday.unique hday'
  rw [hdate', hdate]

example : (Date.mk 2000 2 29).toDays = 11016 ∧ ofDays 11016 = ⟨2000, 2, 29⟩ := by decide

end AdmissionWatch.Time.Date
