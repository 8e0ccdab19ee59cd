import AdmissionWatch.Proofs.Text.Blank
import AdmissionWatch.Proofs.Time.Reading
import AdmissionWatch.Time.Span

/-!
# Spans of time and their texts

A span is read from digits and a unit, with blanks between them or around (`Denotes`), and from nothing
else (`read_eq_ok_iff`). Such a span is a number of whole milliseconds or of whole seconds that 64 bits
hold, however the units saturate (`Denotes.isWhole`), and of those each is read back from what settings
write for it (`IsWhole.read_settingText`).
-/

namespace AdmissionWatch.Time

/-- The units of the spans in settings. -/
inductive SpanUnit where
  | milliseconds
  | seconds
  | minutes
  | hours
  deriving DecidableEq

namespace SpanUnit

/-- The letters of a unit. -/
def text : SpanUnit → List Char
  | milliseconds => ['m', 's']
  | seconds => ['s']
  | minutes => ['m']
  | hours => ['h']

/-- So many of a unit. Minutes and hours come to seconds, of which there are no more than 64 bits hold. -/
def span (n : Nat) : SpanUnit → Span
  | milliseconds => ⟨n * 1000000⟩
  | seconds => ⟨n * 1000000000⟩
  | minutes => ⟨min (n * 60) (2 ^ 64 - 1) * 1000000000⟩
  | hours => ⟨min (n * 3600) (2 ^ 64 - 1) * 1000000000⟩

end SpanUnit

namespace Span

open Text

variable {s : String} {d : Span} {digits gap : List Char} {unit : SpanUnit}

/-- A text says how long a span is: digits for a number of 64 bits and a unit, blanks around and between. -/
inductive Denotes : List Char → Span → Prop
  | intro {before digits gap after : List Char} (unit : SpanUnit) (hbefore : ∀ c ∈ before, isBlank c = true)
      (hne : digits ≠ []) (hdigits : ∀ c ∈ digits, c.isDigit = true) (hbits : natOfDigits digits < 2 ^ 64)
      (hgap : ∀ c ∈ gap, isBlank c = true) (hafter : ∀ c ∈ after, isBlank c = true) :
      Denotes (before ++ (digits ++ (gap ++ unit.text)) ++ after) (unit.span (natOfDigits digits))

/-! ## Reading -/

theorem not_isDigit_of_isBlank {c : Char} (h : isBlank c = true) : c.isDigit = false := by
  rw [← Bool.not_eq_true]
  intro hdigit
  rw [isBlank_of_isDigit hdigit] at h
  cases h

theorem trim_unit (hgap : ∀ c ∈ gap, isBlank c = true) (unit : SpanUnit) : trim (gap ++ unit.text) = unit.text := by
  calc trim (gap ++ unit.text) = trim (gap ++ unit.text ++ []) := by rw [List.append_nil]
    _ = trim unit.text := trim_around hgap (List.forall_mem_nil _) _
    _ = unit.text := by cases unit <;> decide

/-- No digit follows the digits. -/
theorem takeWhile_unit (hgap : ∀ c ∈ gap, isBlank c = true) (unit : SpanUnit) :
    (gap ++ unit.text).takeWhile Char.isDigit = [] := by
  cases gap with
  | nil => cases unit <;> decide
  | cons c gap => simp [not_isDigit_of_isBlank (hgap c (List.mem_cons_self ..))]

/-- Neither the digits nor the unit are blank. -/
theorem trim_core (hne : digits ≠ []) (hdigits : ∀ c ∈ digits, c.isDigit = true) (gap : List Char)
    (unit : SpanUnit) : trim (digits ++ (gap ++ unit.text)) = digits ++ (gap ++ unit.text) := by
  refine trim_eq_self (fun c hc => ?_) (fun c hc => ?_)
  · rw [List.head?_append_of_ne_nil _ hne] at hc
    exact isBlank_of_isDigit (hdigits c (List.mem_of_mem_head? hc))
  · obtain ⟨last, hlast, hblank⟩ : ∃ last, unit.text.getLast? = some last ∧ isBlank last = false := by
      cases unit <;> exact ⟨_, rfl, by decide⟩
    rw [← List.append_assoc, List.getLast?_append, hlast] at hc
    exact Option.some.inj hc ▸ hblank

theorem Denotes.read_eq_ok (h : Denotes s.toList d) : read s = .ok d := by
  generalize hs : s.toList = cs at h
  cases h with
  | intro unit hbefore hne hdigits hbits hgap hafter =>
    rename_i before digits gap after
    have hcore : trim s.toList = digits ++ (gap ++ unit.text) := by
      rw [hs, trim_around hbefore hafter, trim_core hne hdigits]
    have htaken : (digits ++ (gap ++ unit.text)).takeWhile Char.isDigit = digits := by
      rw [List.takeWhile_append_of_pos hdigits, takeWhile_unit hgap, List.append_nil]
    have hdropped : (digits ++ (gap ++ unit.text)).dropWhile Char.isDigit = gap ++ unit.text := by
      rw [List.dropWhile_append_of_pos hdigits]
      simpa [takeWhile_unit hgap unit] using List.takeWhile_append_dropWhile (p := Char.isDigit) (l := gap ++ unit.text)
    have hunit : gap ++ unit.text ≠ [] := by cases unit <;> simp [SpanUnit.text]
    have hle : ¬maxSeconds < natOfDigits digits := by
      have hmost : maxSeconds = 2 ^ 64 - 1 := rfl
      omega
    unfold read
    simp only [hcore, htaken, hdropped, trim_unit hgap, if_neg hunit, if_neg hne, if_neg hle]
    cases unit <;> rfl

theorem denotes_of_read (h : read s = .ok d) : Denotes s.toList d := by
  obtain ⟨before, after, hs, hbefore, hafter⟩ := exists_blanks_around s.toList
  obtain ⟨gap, more, hrest, hgap, hmore⟩ := exists_blanks_around ((trim s.toList).dropWhile Char.isDigit)
  have hdigits : ∀ c ∈ (trim s.toList).takeWhile Char.isDigit, c.isDigit = true :=
    fun c hc => List.mem_takeWhile_imp hc
  have hparts := List.takeWhile_append_dropWhile (p := Char.isDigit) (l := trim s.toList)
  unfold read at h
  dsimp only at h
  generalize (trim s.toList).takeWhile Char.isDigit = digits at h hdigits hparts
  generalize (trim s.toList).dropWhile Char.isDigit = rest at h hrest hparts
  split at h
  · cases h
  split at h
  · cases h
  rename_i hne
  split at h
  · cases h
  rename_i hle
  have hbits : natOfDigits digits < 2 ^ 64 := by
    have hmost : maxSeconds = 2 ^ 64 - 1 := rfl
    omega
  -- Blanks after the unit are blanks after the whole text.
  have hdenotes : ∀ unit : SpanUnit, trim rest = unit.text → Denotes s.toList (unit.span (natOfDigits digits)) := by
    intro unit hunit
    rw [hunit] at hrest
    have heq : s.toList = before ++ (digits ++ (gap ++ unit.text)) ++ (more ++ after) := by
      rw [hs, ← hparts, hrest]
      simp only [List.append_assoc]
    rw [heq]
    exact .intro unit hbefore hne hdigits hbits hgap (List.forall_mem_append.mpr ⟨hmore, hafter⟩)
  split at h
  · rename_i hunit
    exact Except.ok.inj h ▸ hdenotes .milliseconds hunit
  · rename_i hunit
    exact Except.ok.inj h ▸ hdenotes .seconds hunit
  · rename_i hunit
    exact Except.ok.inj h ▸ hdenotes .minutes hunit
  · rename_i hunit
    exact Except.ok.inj h ▸ hdenotes .hours hunit
  · cases h

theorem read_eq_ok_iff : read s = .ok d ↔ Denotes s.toList d := ⟨denotes_of_read, Denotes.read_eq_ok⟩

/-! ## Writing -/

/-- Whole milliseconds or whole seconds, of which there are no more than 64 bits hold. -/
def IsWhole (d : Span) : Prop := ∃ n < 2 ^ 64, d = ofMillis n ∨ d = ofSeconds n

theorem Denotes.isWhole {cs : List Char} (h : Denotes cs d) : d.IsWhole := by
  cases h with
  | intro unit hbefore hne hdigits hbits hgap hafter =>
    cases unit with
    | milliseconds => exact ⟨_, hbits, .inl rfl⟩
    | seconds => exact ⟨_, hbits, .inr rfl⟩
    | minutes => exact ⟨_, by omega, .inr rfl⟩
    | hours => exact ⟨_, by omega, .inr rfl⟩

/-- A number and a unit with nothing between them. -/
theorem read_written {n : Nat} (hbits : n < 2 ^ 64) (unit : SpanUnit) :
    read (toString n ++ String.ofList unit.text) = .ok (unit.span n) := by
  have hdenotes := Denotes.intro unit (List.forall_mem_nil _) Nat.toDigits_ne_nil
    (fun _ => isDigit_of_mem_toDigits (n := n))
    (by rwa [natOfDigits_toDigits]) (List.forall_mem_nil _) (List.forall_mem_nil _)
  rw [natOfDigits_toDigits] at hdenotes
  refine Denotes.read_eq_ok ?_
  rw [String.toList_append, String.toList_ofList]
  simpa using hdenotes

/-- Seconds are written when there are whole ones, and milliseconds else, of which there are not too many. -/
theorem IsWhole.cases (h : d.IsWhole) :
    (d.millis % 1000 = 0 → d = SpanUnit.seconds.span d.seconds ∧ d.seconds < 2 ^ 64) ∧
      (d.millis % 1000 ≠ 0 → d = SpanUnit.milliseconds.span d.millis ∧ d.millis < 2 ^ 64) := by
  obtain ⟨n, hbits, rfl | rfl⟩ := h
  · simp only [ofMillis, millis, seconds, SpanUnit.span, mk.injEq]
    omega
  · simp only [ofSeconds, millis, seconds, SpanUnit.span, mk.injEq]
    omega

theorem IsWhole.read_settingText (h : d.IsWhole) : read d.settingText = .ok d := by
  unfold settingText
  split
  · rename_i hseconds
    obtain ⟨heq, hbits⟩ := h.cases.1 hseconds
    conv_rhs => rw [heq]
    exact read_written hbits .seconds
  · rename_i hmillis
    obtain ⟨heq, hbits⟩ := h.cases.2 hmillis
    conv_rhs => rw [heq]
    exact read_written hbits .milliseconds

end Span

end AdmissionWatch.Time
