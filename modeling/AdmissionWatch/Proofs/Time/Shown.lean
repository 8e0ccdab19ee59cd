import AdmissionWatch.Proofs.Time.Reading

/-!
# Texts that show an instant

A text of RFC 3339 shows an instant when it writes what clocks at some offset from UTC show then, the
offset itself, and the fraction of a second as far as nanoseconds (`Shows`). The strict reader accepts
exactly these texts, and reads the instant that they show (`strict?_eq_some_iff`). The text that is
written of an instant shows the second it is in (`shows_text`).
-/

namespace AdmissionWatch.Time

/-- The date as it is written. -/
def Instant.dateText (t : Instant) : List Char :=
  yearText t.date.year ++ '-' :: (padded 2 t.date.month ++ '-' :: padded 2 t.date.day)

/-- The time of day as it is written, in whole seconds. -/
def Instant.clockText (t : Instant) : List Char :=
  padded 2 t.clock.1 ++ ':' :: (padded 2 t.clock.2.1 ++ ':' :: padded 2 t.clock.2.2)

/-- What may stand between a date and a time of day. -/
def IsDateMark (c : Char) : Prop :=
  c = 't' ∨ c = 'T' ∨ c = ' '

/-- A fraction of a second in nanoseconds: nothing, or a point and digits, of which nine count. -/
inductive IsFraction : List Char → Nat → Prop
  | none : IsFraction [] 0
  | digits {ds : List Char} (hne : ds ≠ []) (hdigits : ∀ c ∈ ds, c.isDigit = true) :
    IsFraction ('.' :: ds) (Text.natOfDigits (ds.take 9) * 10 ^ (9 - (ds.take 9).length))

/-- An offset from UTC of less than a day, in seconds. -/
inductive IsZone : List Char → Int → Prop
  | utc {c : Char} (hc : c = 'Z' ∨ c = 'z') : IsZone [c] 0
  | ahead {hours minutes : Nat} (hhours : hours < 24) (hminutes : minutes < 60) :
    IsZone ('+' :: (padded 2 hours ++ ':' :: padded 2 minutes)) (hours * 3600 + minutes * 60)
  | behind {c : Char} {hours minutes : Nat} (hc : isMinus c = true) (hhours : hours < 24) (hminutes : minutes < 60) :
    IsZone (c :: (padded 2 hours ++ ':' :: padded 2 minutes)) (-(hours * 3600 + minutes * 60))

/-- A text writes what clocks at an offset from UTC show of an instant. -/
inductive Shows : List Char → Instant → Prop
  | mk {t : Instant} {offset : Int} {mark : Char} {fraction zone : List Char} (hproper : t.Proper)
    (hyear : (t.shifted offset).HasPlainYear) (hmark : IsDateMark mark)
    (hfraction : IsFraction fraction (t.nanos % 1000000000)) (hzone : IsZone zone offset) :
    Shows ((t.shifted offset).dateText ++ mark :: ((t.shifted offset).clockText ++ (fraction ++ zone))) t

variable {width n : Nat} {s rest fraction zone : List Char} {c : Char} {t : Instant} {offset : Int}

/-! ### Reading the parts -/

theorem padded_natOfDigits {ds : List Char} (hne : ds ≠ []) (h : ∀ c ∈ ds, c.isDigit = true) :
    padded ds.length (Text.natOfDigits ds) = ds := by
  have hlength := length_padded (List.length_pos_iff.mpr hne) (Text.natOfDigits_lt h)
  exact Text.eq_of_natOfDigits hlength (fun c hc => isDigit_of_mem_padded hc) h (natOfDigits_padded _ _)

theorem fixedNumber?_padded (hwidth : 0 < width) (h : n < 10 ^ width) (rest : List Char) :
    fixedNumber? width (padded width n ++ rest) = some (n, rest) := by
  have hlength := length_padded hwidth h
  have hdigits : (padded width n).all Char.isDigit = true := List.all_eq_true.mpr fun c hc => isDigit_of_mem_padded hc
  simp only [fixedNumber?, List.take_left' hlength, List.drop_left' hlength, hlength, hdigits,
    natOfDigits_padded, and_self, if_true]

theorem eq_padded_of_fixedNumber? (hwidth : 0 < width) (h : fixedNumber? width s = some (n, rest)) :
    n < 10 ^ width ∧ s = padded width n ++ rest := by
  unfold fixedNumber? at h
  obtain ⟨⟨hlength, hdigits⟩, h⟩ := Option.ite_none_right_eq_some.mp h
  obtain ⟨rfl, rfl⟩ := Prod.mk.inj (Option.some.inj h)
  rw [List.all_eq_true] at hdigits
  have hne : s.take width ≠ [] := List.length_pos_iff.mp (hlength.symm ▸ hwidth)
  have hvalue := padded_natOfDigits hne hdigits
  have hlt := Text.natOfDigits_lt hdigits
  rw [hlength] at hvalue hlt
  rw [hvalue, List.take_append_drop]
  exact ⟨hlt, rfl⟩

theorem after?_cons (c : Char) (rest : List Char) : after? c (c :: rest) = some rest := by
  simp [after?]

theorem eq_cons_of_after? (h : after? c s = some rest) : s = c :: rest := by
  cases s with
  | nil => cases h
  | cons d s =>
    simp only [after?, Option.ite_none_right_eq_some] at h
    obtain ⟨rfl, h⟩ := h
    rw [Option.some.inj h]

theorem IsDateMark.afterDate?_cons (h : IsDateMark c) (rest : List Char) : afterDate? (c :: rest) = some rest :=
  if_pos h

theorem dateMark_of_afterDate? (h : afterDate? s = some rest) : ∃ mark, IsDateMark mark ∧ s = mark :: rest := by
  cases s with
  | nil => cases h
  | cons d s =>
    obtain ⟨hmark, h⟩ := Option.ite_none_right_eq_some.mp h
    exact ⟨d, hmark, by rw [Option.some.inj h]⟩

/-- A fraction goes as far as there are digits. -/
theorem fraction_of_nanos? (h : nanos? s = some (n, rest)) :
    ∃ fraction, IsFraction fraction n ∧ s = fraction ++ rest := by
  unfold nanos? at h
  split at h
  · rename_i s
    split at h
    · cases h
    · rename_i hne
      obtain ⟨rfl, rfl⟩ := Prod.mk.inj (Option.some.inj h)
      have hsplit := List.takeWhile_append_dropWhile (p := Char.isDigit) (l := s)
      have hrest : s.drop (s.takeWhile Char.isDigit).length = s.dropWhile Char.isDigit :=
        (congrArg (List.drop _) hsplit.symm).trans (List.drop_left' rfl)
      have hdigits : ∀ c ∈ s.takeWhile Char.isDigit, c.isDigit = true := fun c hc => List.mem_takeWhile_imp hc
      refine ⟨_, .digits hne hdigits, ?_⟩
      rw [hrest, List.cons_append, hsplit]
  · obtain ⟨rfl, rfl⟩ := Prod.mk.inj (Option.some.inj h)
    exact ⟨[], .none, rfl⟩

/-- A fraction is read up to what is neither a point nor a digit. -/
theorem IsFraction.nanos?_append (h : IsFraction fraction n) (hpoint : c ≠ '.') (hdigit : c.isDigit = false) :
    nanos? (fraction ++ c :: rest) = some (n, c :: rest) := by
  cases h with
  | none =>
    unfold nanos?
    split
    · rename_i heq
      exact absurd (List.cons.inj heq).1 hpoint
    · rfl
  | @digits ds hne hdigits =>
    have hrun : (ds ++ c :: rest).takeWhile Char.isDigit = ds := by
      rw [List.takeWhile_append_of_pos hdigits, List.takeWhile_cons_of_neg (by simp [hdigit]), List.append_nil]
    simp only [nanos?, List.cons_append, hrun, List.drop_left]
    rfl

theorem IsFraction.lt (h : IsFraction fraction n) : n < 1000000000 := by
  cases h with
  | none => decide
  | @digits ds hne hdigits =>
    have hlength : (ds.take 9).length ≤ 9 := List.length_take_le 9 ds
    have hlt : Text.natOfDigits (ds.take 9) < 10 ^ (ds.take 9).length :=
      Text.natOfDigits_lt fun c hc => hdigits c (List.mem_of_mem_take hc)
    calc Text.natOfDigits (ds.take 9) * 10 ^ (9 - (ds.take 9).length)
      _ < 10 ^ (ds.take 9).length * 10 ^ (9 - (ds.take 9).length) :=
        Nat.mul_lt_mul_of_pos_right hlt (Nat.pow_pos (by decide))
      _ = 10 ^ 9 := by rw [← Nat.pow_add, Nat.add_sub_cancel' hlength]

/-- What an offset is read from, whatever stands for its colon. -/
theorem offset?_cases {colon? : List Char → Option (List Char)} (h : offset? colon? s = some (offset, rest)) :
    (offset = 0 ∧ ∃ c, (c = 'Z' ∨ c = 'z') ∧ s = c :: rest) ∨
      ∃ c s₁ hours s₂ s₃ minutes, (c = '+' ∨ isMinus c = true) ∧ s = c :: s₁ ∧
        fixedNumber? 2 s₁ = some (hours, s₂) ∧
        colon? s₂ = some s₃ ∧ fixedNumber? 2 s₃ = some (minutes, rest) ∧ minutes < 60 ∧
        offset = if c = '+' then (hours * 3600 + minutes * 60 : Int) else -(hours * 3600 + minutes * 60) := by
  unfold offset? at h
  split at h
  · obtain ⟨rfl, rfl⟩ := Prod.mk.inj (Option.some.inj h)
    exact .inl ⟨rfl, _, .inl rfl, rfl⟩
  · obtain ⟨rfl, rfl⟩ := Prod.mk.inj (Option.some.inj h)
    exact .inl ⟨rfl, _, .inr rfl, rfl⟩
  · simp only [Option.bind_eq_bind, Option.bind_eq_some_iff, Option.ite_none_right_eq_some,
      Option.ite_none_left_eq_some, Prod.exists] at h
    obtain ⟨hsign, hours, s₂, hhours, s₃, hcolon, minutes, s₄, hminutes, hsixty, h⟩ := h
    obtain ⟨rfl, rfl⟩ := Prod.mk.inj (Option.some.inj h)
    exact .inr ⟨_, _, hours, s₂, s₃, minutes, hsign, rfl, hhours, hcolon, hminutes, Nat.not_le.mp hsixty, rfl⟩
  · cases h

/-- Offsets are of whole minutes. -/
theorem offset_of_offset? {colon? : List Char → Option (List Char)} (h : offset? colon? s = some (offset, rest)) :
    offset % 60 = 0 := by
  rcases offset?_cases h with ⟨rfl, -⟩ | ⟨c, s₁, hours, s₂, s₃, minutes, -, -, -, -, -, -, hoffset⟩
  · rfl
  · split at hoffset <;> omega

theorem zone_of_offset? (h : offset? (after? ':') s = some (offset, rest)) (hrange : offset.natAbs < 86400) :
    ∃ zone, IsZone zone offset ∧ s = zone ++ rest := by
  rcases offset?_cases h with ⟨rfl, c, hc, rfl⟩ |
    ⟨c, s₁, hours, s₂, s₃, minutes, hsign, rfl, hhours, hcolon, hminutes, h⟩
  · exact ⟨[c], .utc hc, rfl⟩
  · obtain ⟨hsixty, hoffset⟩ := h
    obtain ⟨-, rfl⟩ := eq_padded_of_fixedNumber? (by decide) hhours
    obtain rfl := eq_cons_of_after? hcolon
    obtain ⟨-, rfl⟩ := eq_padded_of_fixedNumber? (by decide) hminutes
    have hday : hours < 24 := by split at hoffset <;> omega
    have htext : c :: (padded 2 hours ++ ':' :: (padded 2 minutes ++ rest)) =
        c :: (padded 2 hours ++ ':' :: padded 2 minutes) ++ rest := by simp
    by_cases hplus : c = '+'
    · subst hplus
      rw [if_pos rfl] at hoffset
      exact ⟨_, hoffset ▸ .ahead hday hsixty, htext⟩
    · rw [if_neg hplus] at hoffset
      exact ⟨_, hoffset ▸ .behind (hsign.resolve_left hplus) hday hsixty, htext⟩

theorem eq_of_isMinus (h : isMinus c = true) : c = '-' ∨ c = '\u2212' := by
  simpa [isMinus] using h

theorem offset?_sign {hours minutes : Nat} (hsign : c = '+' ∨ isMinus c = true) (hhours : hours < 24)
    (hminutes : minutes < 60) (rest : List Char) :
    offset? (after? ':') (c :: (padded 2 hours ++ ':' :: padded 2 minutes) ++ rest) =
      some (if c = '+' then (hours * 3600 + minutes * 60 : Int) else -(hours * 3600 + minutes * 60), rest) := by
  have hnotUtc : c ≠ 'Z' ∧ c ≠ 'z' := by
    rcases hsign with rfl | hminus
    · decide
    · rcases eq_of_isMinus hminus with rfl | rfl <;> decide
  rw [List.cons_append, List.append_assoc, List.cons_append]
  unfold offset?
  split
  · rename_i heq
    exact absurd (List.cons.inj heq).1 hnotUtc.1
  · rename_i heq
    exact absurd (List.cons.inj heq).1 hnotUtc.2
  · rename_i heq
    obtain ⟨rfl, rfl⟩ := List.cons.inj heq
    rw [if_pos hsign, fixedNumber?_padded (by decide) (by omega)]
    simp only [Option.bind_eq_bind, Option.bind_some, after?_cons]
    rw [fixedNumber?_padded (by decide) (by omega), Option.bind_some,
      if_neg (Nat.not_lt.mpr (Nat.le_of_lt_succ hminutes))]
    rfl
  · rename_i heq
    cases heq

theorem IsZone.offset?_append (h : IsZone zone offset) (rest : List Char) :
    offset? (after? ':') (zone ++ rest) = some (offset, rest) := by
  cases h with
  | utc hc =>
    rcases hc with rfl | rfl
    · rfl
    · rfl
  | ahead hhours hminutes => exact offset?_sign (.inl rfl) hhours hminutes rest
  | behind hc hhours hminutes =>
    rw [offset?_sign (.inr hc) hhours hminutes rest, if_neg]
    rintro rfl
    exact absurd hc (by decide)

theorem IsZone.emod_sixty (h : IsZone zone offset) : offset % 60 = 0 := by
  cases h with
  | utc hc => rfl
  | ahead hhours hminutes => omega
  | behind hc hhours hminutes => omega

theorem IsZone.natAbs_lt (h : IsZone zone offset) : offset.natAbs < 86400 := by
  cases h with
  | utc hc => decide
  | ahead hhours hminutes => omega
  | behind hc hhours hminutes => omega

/-- What begins an offset goes on no fraction. -/
theorem IsZone.head (h : IsZone zone offset) : ∃ c rest, zone = c :: rest ∧ c ≠ '.' ∧ c.isDigit = false := by
  cases h with
  | utc hc =>
    refine ⟨_, _, rfl, ?_⟩
    rcases hc with rfl | rfl <;> decide
  | ahead hhours hminutes => exact ⟨_, _, rfl, by decide⟩
  | behind hc hhours hminutes =>
    refine ⟨_, _, rfl, ?_⟩
    rcases eq_of_isMinus hc with rfl | rfl <;> decide

/-! ### Reading a text -/

theorem dateText_of_plainYear (h : t.HasPlainYear) :
    t.dateText = padded 4 t.date.year.toNat ++ '-' :: (padded 2 t.date.month ++ '-' :: padded 2 t.date.day) := by
  have hyear : 0 ≤ t.date.year ∧ t.date.year ≤ 9999 := h
  rw [Instant.dateText, yearText, if_pos hyear]

theorem strict?_of_shows (h : Shows s t) : strict? s = some t := by
  cases h with
  | @mk _ offset mark fraction zone hproper hyear hmark hfraction hzone =>
    obtain ⟨c, more, hc, hpoint, hdigit⟩ := hzone.head
    obtain ⟨hmonth, hday, hhour, hminute, hsecond⟩ :=
      parts_lt ((Instant.proper_shifted_iff hzone.emod_sixty).mpr hproper)
    have hdigits : (t.shifted offset).date.year.toNat < 10000 := by
      obtain ⟨-, hmost⟩ := hyear
      omega
    have hcast : ((t.shifted offset).date.year.toNat : Int) = (t.shifted offset).date.year :=
      Int.toNat_of_nonneg hyear.1
    have hnanos : nanos? (fraction ++ zone) = some (t.nanos % 1000000000, zone) := by
      rw [hc]
      exact hfraction.nanos?_append hpoint hdigit
    have hoffset : offset? (after? ':') zone = some (offset, []) := by simpa using hzone.offset?_append []
    unfold strict?
    rw [dateText_of_plainYear hyear, Instant.clockText]
    simp only [List.append_assoc, List.cons_append, Option.bind_eq_bind]
    rw [fixedNumber?_padded (by decide) hdigits, Option.bind_some, after?_cons, Option.bind_some,
      fixedNumber?_padded (by decide) hmonth, Option.bind_some, after?_cons, Option.bind_some,
      fixedNumber?_padded (by decide) hday, Option.bind_some, hmark.afterDate?_cons, Option.bind_some,
      fixedNumber?_padded (by decide) hhour, Option.bind_some, after?_cons, Option.bind_some,
      fixedNumber?_padded (by decide) hminute, Option.bind_some, after?_cons, Option.bind_some,
      fixedNumber?_padded (by decide) hsecond, Option.bind_some, hnanos, Option.bind_some, hoffset, Option.bind_some,
      if_pos rfl, hcast]
    exact instant?_shifted hproper hzone.emod_sixty hzone.natAbs_lt hyear

theorem shows_of_strict? (h : strict? s = some t) : Shows s t := by
  simp only [strict?, Option.bind_eq_bind, Option.bind_eq_some_iff, Option.ite_none_right_eq_some, Prod.exists] at h
  obtain ⟨year, s₁, hyear, s₂, hdash, month, s₃, hmonth, s₄, hdash', day, s₅, hday, s₆, hmark, h⟩ := h
  obtain ⟨hour, s₇, hhour, s₈, hcolon, minute, s₉, hminute, s₁₀, hcolon', second, s₁₁, hsecond,
    h⟩ := h
  obtain ⟨nanos, s₁₂, hnanos, offset, s₁₃, hoffset, rfl, h⟩ := h
  -- Whatever was read of the text is what it begins with, from the year on.
  obtain ⟨hfour, rfl⟩ := eq_padded_of_fixedNumber? (by decide) hyear
  obtain rfl := eq_cons_of_after? hdash
  obtain ⟨-, rfl⟩ := eq_padded_of_fixedNumber? (by decide) hmonth
  obtain rfl := eq_cons_of_after? hdash'
  obtain ⟨-, rfl⟩ := eq_padded_of_fixedNumber? (by decide) hday
  obtain ⟨mark, hdateMark, rfl⟩ := dateMark_of_afterDate? hmark
  obtain ⟨-, rfl⟩ := eq_padded_of_fixedNumber? (by decide) hhour
  obtain rfl := eq_cons_of_after? hcolon
  obtain ⟨-, rfl⟩ := eq_padded_of_fixedNumber? (by decide) hminute
  obtain rfl := eq_cons_of_after? hcolon'
  obtain ⟨-, rfl⟩ := eq_padded_of_fixedNumber? (by decide) hsecond
  obtain ⟨fraction, hfraction, rfl⟩ := fraction_of_nanos? hnanos
  obtain ⟨zone, hzone, rfl⟩ := zone_of_offset? hoffset (offset_lt_of_instant? h)
  obtain ⟨hproper, hdate, hclock, hfraction'⟩ := shown_of_instant? hfraction.lt hzone.emod_sixty h
  dsimp only at hdate hclock hfraction'
  have hplain : (t.shifted offset).HasPlainYear := by
    rw [Instant.HasPlainYear, hdate]
    exact ⟨Int.natCast_nonneg year, Int.lt_add_one_iff.mp (Int.ofNat_lt.mpr hfour)⟩
  have h := Shows.mk hproper hplain hdateMark (hfraction'.symm ▸ hfraction) hzone
  rw [dateText_of_plainYear hplain, Instant.clockText, hdate, hclock] at h
  simpa using h

theorem strict?_eq_some_iff : strict? s = some t ↔ Shows s t :=
  ⟨shows_of_strict?, strict?_of_shows⟩

/-! ### The text of an instant -/

/-- The instant without its fraction of a second. -/
def Instant.whole (t : Instant) : Instant :=
  ⟨t.seconds, t.nanos / 1000000000 * 1000000000⟩

theorem Instant.text_eq (t : Instant) : t.text.toList = t.dateText ++ 'T' :: (t.clockText ++ ['Z']) := by
  simp [Instant.text, Instant.upToSeconds, Instant.dateText, Instant.clockText]

theorem Instant.proper_whole (h : t.Proper) : t.whole.Proper := by
  unfold Instant.Proper at h ⊢
  simp only [Instant.whole]
  omega

theorem Instant.clock_whole (t : Instant) : t.whole.clock = t.clock := by
  simp only [Instant.clock, Instant.whole, Nat.mul_div_cancel _ (by decide : 0 < 1000000000)]
  rfl

/-- The text of an instant shows it without its fraction, which in a leap second is that second. -/
theorem shows_text (h : t.Proper) (hyear : t.HasPlainYear) : Shows t.text.toList t.whole := by
  have hnone : IsFraction [] (t.whole.nanos % 1000000000) :=
    (Nat.mul_mod_left _ _ : t.whole.nanos % 1000000000 = 0) ▸ .none
  have hplain : (t.whole.shifted 0).HasPlainYear := t.whole.shifted_zero.symm ▸ hyear
  have hshows : Shows _ t.whole := .mk (Instant.proper_whole h) hplain (.inr (.inl rfl)) hnone (.utc (.inl rfl))
  have hdate : t.whole.dateText = t.dateText := rfl
  rw [Instant.shifted_zero, hdate, Instant.clockText, Instant.clock_whole] at hshows
  rw [Instant.text_eq]
  exact hshows

/-- Whether clocks show an instant, and in a year that is written with four digits. -/
def Instant.Ordinary (t : Instant) : Prop :=
  t.Proper ∧ t.HasPlainYear

instance (t : Instant) : Decidable t.Ordinary :=
  inferInstanceAs (Decidable (_ ∧ _))

theorem Instant.Ordinary.readStrict?_text (h : t.Ordinary) : readStrict? t.text = some t.whole :=
  strict?_of_shows (shows_text h.1 h.2)

/-! ### Times that are read in the relaxed way -/

theorem proper_of_relaxed? (h : relaxed? s = some t) : t.Proper := by
  simp only [relaxed?, Option.bind_eq_bind, Option.bind_eq_some_iff, Option.ite_none_right_eq_some, Prod.exists] at h
  obtain ⟨year, s₁, -, s₂, -, month, s₃, -, s₄, -, day, s₅, -, s₆, -, h⟩ := h
  obtain ⟨hour, s₇, -, s₈, -, minute, s₉, -, s₁₀, -, second, s₁₁, -, h⟩ := h
  obtain ⟨nanos, s₁₂, hnanos, offset, s₁₃, hoffset, -, h⟩ := h
  obtain ⟨fraction, hfraction, -⟩ := fraction_of_nanos? hnanos
  have hsixty : offset % 60 = 0 := by
    unfold relaxedOffset? at hoffset
    split at hoffset
    · obtain ⟨rfl, -⟩ := Prod.mk.inj (Option.some.inj hoffset)
      rfl
    · exact offset_of_offset? hoffset
  exact (shown_of_instant? hfraction.lt hsixty h).1

end AdmissionWatch.Time
