import AdmissionWatch.Proofs.Json.Quoted

/-!
# Spelling strings

A string can be written in many ways: each character as it is, after a backslash, or by its number,
which takes two code units where it has more than four digits. The reader decodes exactly these
(`spells_iff`): from a body that spells a text it gets this text, and what it gets a text from spells it.
-/

namespace AdmissionWatch.Json.Raw

/-- The body of a string, and the characters that it stands for. -/
inductive Spells : List Char → List Char → Prop
  | nil : Spells [] []
  | plain {c : Char} {b s : List Char} : 32 ≤ c.toNat → c ≠ '"' → c ≠ '\\' → Spells b s →
      Spells (c :: b) (c :: s)
  | simple {e : Char} {b s : List Char} : isSimpleEscape e = true → Spells b s →
      Spells ('\\' :: e :: b) (simpleEscape e :: s)
  | unit {d₁ d₂ d₃ d₄ c : Char} {b s : List Char} : Text.hexNumber? [d₁, d₂, d₃, d₄] = some c.toNat →
      Spells b s → Spells ('\\' :: 'u' :: d₁ :: d₂ :: d₃ :: d₄ :: b) (c :: s)
  | pair {d₁ d₂ d₃ d₄ e₁ e₂ e₃ e₄ c : Char} {high low : Nat} {b s : List Char} :
      Text.hexNumber? [d₁, d₂, d₃, d₄] = some high → isHighSurrogate high = true →
      Text.hexNumber? [e₁, e₂, e₃, e₄] = some low → isLowSurrogate low = true →
      c.toNat = 0x10000 + (high - 0xd800) * 0x400 + (low - 0xdc00) → Spells b s →
      Spells ('\\' :: 'u' :: d₁ :: d₂ :: d₃ :: d₄ :: '\\' :: 'u' :: e₁ :: e₂ :: e₃ :: e₄ :: b) (c :: s)

variable {b s : List Char}

/-! ### Code units -/

theorem isHex_of_hexNumber? {d₁ d₂ d₃ d₄ : Char} {n : Nat}
    (h : Text.hexNumber? [d₁, d₂, d₃, d₄] = some n) :
    isHex d₁ = true ∧ isHex d₂ = true ∧ isHex d₃ = true ∧ isHex d₄ = true := by
  simp only [Text.hexNumber?, List.foldl_cons, List.foldl_nil, Option.bind_eq_some_iff, Option.map_eq_some_iff] at h
  obtain ⟨_, ⟨_, ⟨_, ⟨_, -, _, h₁, -⟩, _, h₂, -⟩, _, h₃, -⟩, _, h₄, -⟩ := h
  simp [isHex, h₁, h₂, h₃, h₄]

theorem hexValue?_lt {d : Char} {n : Nat} (h : Text.hexValue? d = some n) : n < 16 := by
  unfold Text.hexValue? at h
  simp only [Char.le_def, UInt32.le_iff_toNat_le] at h
  split at h
  · rename_i hdigit
    have hn : d.toNat - 48 = n := Option.some.inj h
    have hmost : d.toNat ≤ 57 := hdigit.2
    omega
  · split at h
    · rename_i hletter
      have hn : d.toNat - 87 = n := Option.some.inj h
      have hmost : d.toNat ≤ 102 := hletter.2
      omega
    · split at h
      · rename_i hletter
        have hn : d.toNat - 55 = n := Option.some.inj h
        have hmost : d.toNat ≤ 70 := hletter.2
        omega
      · cases h

theorem hexNumber?_lt {d₁ d₂ d₃ d₄ : Char} {n : Nat} (h : Text.hexNumber? [d₁, d₂, d₃, d₄] = some n) :
    n < 0x10000 := by
  simp only [Text.hexNumber?, List.foldl_cons, List.foldl_nil, Option.bind_eq_some_iff, Option.map_eq_some_iff] at h
  obtain ⟨_, ⟨_, ⟨_, ⟨_, h₀, _, h₁, rfl⟩, _, h₂, rfl⟩, _, h₃, rfl⟩, _, h₄, rfl⟩ := h
  cases h₀
  have := hexValue?_lt h₁
  have := hexValue?_lt h₂
  have := hexValue?_lt h₃
  have := hexValue?_lt h₄
  omega

theorem not_surrogate (c : Char) : isHighSurrogate c.toNat = false ∧ isLowSurrogate c.toNat = false := by
  have hvalid : c.toNat < 0xd800 ∨ 0xdfff < c.toNat := c.valid.imp_right And.left
  unfold isHighSurrogate isLowSurrogate
  simp only [Bool.and_eq_false_iff, decide_eq_false_iff_not]
  omega

theorem toNat_ofNat {n : Nat} (h : n.isValidChar) : (Char.ofNat n).toNat = n := by
  rw [Char.ofNat, dif_pos h]
  rfl

theorem toNat_of_unit {d₁ d₂ d₃ d₄ : Char} {n : Nat} (hn : Text.hexNumber? [d₁, d₂, d₃, d₄] = some n)
    (hhigh : isHighSurrogate n = false) (hlow : isLowSurrogate n = false) : (Char.ofNat n).toNat = n := by
  have hmost := hexNumber?_lt hn
  unfold isHighSurrogate at hhigh
  unfold isLowSurrogate at hlow
  simp only [Bool.and_eq_false_iff, decide_eq_false_iff_not] at hhigh hlow
  exact toNat_ofNat (by unfold Nat.isValidChar; omega)

/-! ### Reading back -/

theorem Spells.isBody (h : Spells b s) : IsBody b := by
  induction h with
  | nil => exact .nil
  | plain hlow hquote hslash _ ih => exact .plain hlow hquote hslash ih
  | simple he _ ih => exact .simple he ih
  | unit hn _ ih =>
    obtain ⟨h₁, h₂, h₃, h₄⟩ := isHex_of_hexNumber? hn
    exact .unit h₁ h₂ h₃ h₄ ih
  | pair hn _ hm _ _ _ ih =>
    obtain ⟨h₁, h₂, h₃, h₄⟩ := isHex_of_hexNumber? hn
    obtain ⟨h₅, h₆, h₇, h₈⟩ := isHex_of_hexNumber? hm
    exact .unit h₁ h₂ h₃ h₄ (.unit h₅ h₆ h₇ h₈ ih)

theorem Spells.unescape (h : Spells b s) : unescape b = some s := by
  induction h with
  | nil => rfl
  | plain _ _ hslash _ ih =>
    rw [Raw.unescape, ih]
    · rfl
    all_goals intros; contradiction
  | @simple e _ _ he _ ih =>
    have hu : e ≠ 'u' := by
      rintro rfl
      cases he
    rw [Raw.unescape, ih]
    · rfl
    all_goals intros; contradiction
  | @unit _ _ _ _ c _ _ hn _ ih =>
    obtain ⟨hhigh, hlow⟩ := not_surrogate c
    rw [unescape_unit hn hhigh hlow, ih, Char.ofNat_toNat]
    rfl
  | pair hn hhigh hm hlow hc _ ih =>
    rw [Raw.unescape, hn, hm]
    simp [hhigh, hlow, ih, ← hc, Char.ofNat_toNat]

theorem IsBody.of_unit {d₁ d₂ d₃ d₄ : Char} (h : IsBody ('\\' :: 'u' :: d₁ :: d₂ :: d₃ :: d₄ :: b)) :
    IsBody b := by
  cases h with
  | plain _ _ hslash _ => exact absurd rfl hslash
  | simple hu _ => cases hu
  | unit _ _ _ _ h => exact h

theorem spells_of_unescape (hbody : IsBody b) (h : Raw.unescape b = some s) : Spells b s := by
  fun_induction Raw.unescape b generalizing s with
  | case1 =>
    cases h
    exact .nil
  | case2 d₁ d₂ d₃ d₄ e₁ e₂ e₃ e₄ rest ihpair ihunit =>
    simp only [Option.bind_eq_bind, Option.bind_eq_some_iff] at h
    obtain ⟨n, hn, m, hm, h⟩ := h
    split at h
    · rename_i hhigh
      split at h
      · rename_i hlow
        obtain ⟨t, ht, heq⟩ := Option.bind_eq_some_iff.mp h
        cases heq
        refine .pair hn hhigh hm hlow ?_ (ihpair hbody.of_unit.of_unit ht)
        unfold isHighSurrogate at hhigh
        unfold isLowSurrogate at hlow
        simp only [Bool.and_eq_true, decide_eq_true_iff] at hhigh hlow
        refine toNat_ofNat (.inr ⟨?_, ?_⟩) <;> omega
      · cases h
    · rename_i hhigh
      split at h
      · cases h
      · rename_i hlow
        obtain ⟨t, ht, heq⟩ := Option.bind_eq_some_iff.mp h
        cases heq
        exact .unit (hn.trans (congrArg some (toNat_of_unit hn (by simpa using hhigh) (by simpa using hlow)).symm))
          (ihunit hbody.of_unit ht)
  | case3 d₁ d₂ d₃ d₄ rest _ ih =>
    simp only [Option.bind_eq_bind, Option.bind_eq_some_iff] at h
    obtain ⟨n, hn, h⟩ := h
    split at h
    · cases h
    · rename_i hunit
      simp only [Bool.or_eq_true, not_or, Bool.not_eq_true] at hunit
      obtain ⟨t, ht, heq⟩ := Option.bind_eq_some_iff.mp h
      cases heq
      exact .unit (hn.trans (congrArg some (toNat_of_unit hn hunit.1 hunit.2).symm)) (ih hbody.of_unit ht)
  | case4 e rest _ hunit ih =>
    obtain ⟨t, ht, heq⟩ := Option.bind_eq_some_iff.mp h
    cases heq
    cases hbody with
    | plain _ _ hslash _ => exact absurd rfl hslash
    | simple he hrest => exact .simple he (ih hrest ht)
    | unit => exact (hunit _ _ _ _ _ rfl rfl).elim
  | case5 c rest _ _ hslash ih =>
    obtain ⟨t, ht, heq⟩ := Option.bind_eq_some_iff.mp h
    cases heq
    cases hbody with
    | plain hlow hquote hslash hrest => exact .plain hlow hquote hslash (ih hrest ht)
    | simple => exact (hslash _ _ rfl rfl).elim
    | unit => exact (hslash _ _ rfl rfl).elim

theorem spells_iff : Spells b s ↔ IsBody b ∧ Raw.unescape b = some s :=
  ⟨fun h => ⟨h.isBody, h.unescape⟩, fun h => spells_of_unescape h.1 h.2⟩

instance : DecidablePred IsBody :=
  fun b => decidable_of_iff (body (b ++ ['"']) = some (b, []))
    ⟨fun h => (isBody_of_body h).1, fun h => body_append h []⟩

instance (b s : List Char) : Decidable (Spells b s) :=
  decidable_of_iff _ spells_iff.symm

end AdmissionWatch.Json.Raw
