import AdmissionWatch.Json.Kept
import AdmissionWatch.Json.Printer
import AdmissionWatch.Proofs.Json.Token

/-!
# Strings as written

Every text of characters can be written between quotes and is read back from there
(`unescape_escaped`), whatever quotes, backslashes and control characters it has.
-/

namespace AdmissionWatch.Json.Raw

/-- The body of the string that a text is written as. -/
def escaped (s : List Char) : List Char :=
  s.flatMap escapeChar

theorem hex_of_control {n : Nat} (h : n < 32) : ∃ a b c d, Text.hexPadded 4 n = [a, b, c, d] ∧
    Text.hexNumber? [a, b, c, d] = some n ∧ isHex a = true ∧ isHex b = true ∧ isHex c = true ∧
    isHex d = true := by
  have hall : ∀ n < 32, Text.hexNumber? (Text.hexPadded 4 n) = some n ∧ (Text.hexPadded 4 n).all isHex = true := by
    decide
  obtain ⟨hnumber, hdigits⟩ := hall n h
  refine ⟨_, _, _, _, rfl, hnumber, ?_⟩
  simpa [Text.hexPadded] using hdigits

/-- How a character is written: after a backslash, by its number, or as it is. -/
theorem escapeChar_cases (c : Char) :
    (∃ e, escapeChar c = ['\\', e] ∧ isSimpleEscape e = true ∧ simpleEscape e = c) ∨
      (c.toNat < 32 ∧ escapeChar c = '\\' :: 'u' :: Text.hexPadded 4 c.toNat) ∨
      (32 ≤ c.toNat ∧ c ≠ '"' ∧ c ≠ '\\' ∧ escapeChar c = [c]) := by
  unfold escapeChar
  split
  case h_8 =>
    split
    · next h => exact .inr (.inl ⟨h, rfl⟩)
    · next h => exact .inr (.inr ⟨Nat.not_lt.mp h, by assumption, by assumption, rfl⟩)
  all_goals exact .inl ⟨_, rfl, rfl, rfl⟩

theorem IsBody.append {b b' : List Char} (h : IsBody b) (h' : IsBody b') : IsBody (b ++ b') := by
  induction h with
  | nil => exact h'
  | plain hc hquote hslash _ ih => exact .plain hc hquote hslash ih
  | simple hc _ ih => exact .simple hc ih
  | unit ha hb hc hd _ ih => exact .unit ha hb hc hd ih

theorem isBody_escapeChar (c : Char) : IsBody (escapeChar c) := by
  rcases escapeChar_cases c with ⟨e, heq, he, -⟩ | ⟨hlow, heq⟩ | ⟨hhigh, hquote, hslash, heq⟩
  · exact heq ▸ .simple he .nil
  · obtain ⟨x, y, z, w, hdigits, -, hx, hy, hz, hw⟩ := hex_of_control hlow
    rw [heq, hdigits]
    exact .unit hx hy hz hw .nil
  · exact heq ▸ .plain hhigh hquote hslash .nil

theorem isBody_escaped (s : List Char) : IsBody (escaped s) := by
  induction s with
  | nil => exact .nil
  | cons c s ih => exact (isBody_escapeChar c).append ih

theorem unescape_of_not_number {a b c d : Char} (h : Text.hexNumber? [a, b, c, d] = none) (rest : List Char) :
    unescape ('\\' :: 'u' :: a :: b :: c :: d :: rest) = none := by
  by_cases hpair : ∃ e f g h r, rest = '\\' :: 'u' :: e :: f :: g :: h :: r
  · obtain ⟨e, f, g, h', r, rfl⟩ := hpair
    rw [unescape, h]
    rfl
  · rw [unescape, h]
    · rfl
    · exact fun e f g h r heq => hpair ⟨e, f, g, h, r, heq⟩

/-- What is written by the number of a character stands for this character, whatever follows. -/
theorem unescape_unit {a b c d : Char} {n : Nat} (hn : Text.hexNumber? [a, b, c, d] = some n)
    (hhigh : isHighSurrogate n = false) (hlow : isLowSurrogate n = false) (rest : List Char) :
    unescape ('\\' :: 'u' :: a :: b :: c :: d :: rest) = (unescape rest).map (Char.ofNat n :: ·) := by
  by_cases hpair : ∃ e f g h r, rest = '\\' :: 'u' :: e :: f :: g :: h :: r
  · obtain ⟨e, f, g, h, r, rfl⟩ := hpair
    rw [unescape, hn]
    -- The reader looks at the second number to tell a pair, and takes it up again when it is none.
    cases hm : Text.hexNumber? [e, f, g, h] with
    | none =>
      rw [unescape_of_not_number hm]
      rfl
    | some m =>
      simp only [Option.bind_eq_bind, Option.bind_some, hhigh, hlow]
      cases unescape ('\\' :: 'u' :: e :: f :: g :: h :: r) <;> rfl
  · rw [unescape, hn]
    · simp only [Option.bind_eq_bind, Option.bind_some, hhigh, hlow]
      cases unescape rest <;> rfl
    · exact fun e f g h r heq => hpair ⟨e, f, g, h, r, heq⟩

theorem unescape_escapeChar (c : Char) (rest : List Char) :
    unescape (escapeChar c ++ rest) = (unescape rest).map (c :: ·) := by
  rcases escapeChar_cases c with ⟨e, heq, he, hmeaning⟩ | ⟨hlow, heq⟩ | ⟨hhigh, hquote, hslash, heq⟩
  · have hu : e ≠ 'u' := by
      rintro rfl
      cases he
    rw [heq, List.cons_append, List.cons_append, List.nil_append, unescape, hmeaning]
    · cases unescape rest <;> rfl
    · exact fun _ _ _ _ _ _ _ _ _ h => absurd h hu
    · exact fun _ _ _ _ _ h => absurd h hu
  · obtain ⟨x, y, z, w, hdigits, hn, -⟩ := hex_of_control hlow
    have hunit := unescape_unit hn (by unfold isHighSurrogate; simp; omega) (by unfold isLowSurrogate; simp; omega) rest
    rw [Char.ofNat_toNat] at hunit
    rw [heq, hdigits]
    exact hunit
  · rw [heq, List.cons_append, List.nil_append, unescape]
    · cases unescape rest <;> rfl
    all_goals intros; contradiction

theorem unescape_escaped (s : List Char) : unescape (escaped s) = some s := by
  induction s with
  | nil => rfl
  | cons c s ih =>
    show unescape (escapeChar c ++ escaped s) = _
    rw [unescape_escapeChar, ih]
    rfl

end AdmissionWatch.Json.Raw
