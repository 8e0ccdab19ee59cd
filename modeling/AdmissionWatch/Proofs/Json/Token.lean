import Mathlib.Data.List.DropRight
import AdmissionWatch.Json.Raw

/-!
# Blanks, strings and numbers of JSON

The grammar of what stands between the brackets of a JSON text, and that the reader takes exactly
this: from a text that starts with a string body or a numeral it takes that (`body_append`,
`numeral_append`), and what it takes is one (`isBody_of_body`, `numeralText_of_numeral`). A numeral
has no closing mark, so it is taken whole only where the text goes on with what may follow a value
(`Ends`).
-/

namespace AdmissionWatch.Json.Raw

variable {s rest : List Char}

/-- A run of blanks. -/
def Gap (g : List Char) : Prop :=
  ∀ c ∈ g, isSpace c = true

theorem Gap.nil : Gap [] := by
  intro c hc
  cases hc

theorem skip_gap {g : List Char} (h : Gap g) (s : List Char) : skip (g ++ s) = skip s :=
  List.dropWhile_append_of_pos h

theorem skip_cons {c : Char} (h : isSpace c = false) (s : List Char) : skip (c :: s) = c :: s := by
  simp [skip, h]

theorem skip_gap_cons {g : List Char} {c : Char} (hg : Gap g) (hc : isSpace c = false) (s : List Char) :
    skip (g ++ c :: s) = c :: s :=
  (skip_gap hg _).trans (skip_cons hc s)

theorem skip_skip (s : List Char) : skip (skip s) = skip s :=
  List.dropWhile_idempotent isSpace s

theorem exists_gap (s : List Char) : ∃ g, Gap g ∧ s = g ++ skip s := by
  refine ⟨s.takeWhile isSpace, ?_, List.takeWhile_append_dropWhile.symm⟩
  intro c hc
  exact List.all_eq_true.mp List.all_takeWhile c hc

theorem cases_isSpace {c : Char} (h : isSpace c = true) : c = ' ' ∨ c = '\n' ∨ c = '\t' ∨ c = '\r' := by
  simpa [isSpace, or_assoc] using h

/-- Nothing, or what may follow a value. -/
def Ends (s : List Char) : Prop :=
  ∀ c ∈ s.head?, isSpace c = true ∨ c = ',' ∨ c = ']' ∨ c = '\x7d'

theorem Ends.nil : Ends [] := by
  intro c hc
  cases hc

theorem Ends.gap {g : List Char} (h : Gap g) (hs : Ends s) : Ends (g ++ s) := by
  cases g with
  | nil => exact hs
  | cons c g =>
    intro d hd
    obtain rfl : c = d := by simpa using hd
    exact .inl (h c (List.mem_cons_self ..))

/-! ## Strings -/

/-- The body of a string as written. -/
inductive IsBody : List Char → Prop
  | nil : IsBody []
  | plain {c : Char} {s : List Char} : 32 ≤ c.toNat → c ≠ '"' → c ≠ '\\' → IsBody s → IsBody (c :: s)
  | simple {c : Char} {s : List Char} : isSimpleEscape c = true → IsBody s → IsBody ('\\' :: c :: s)
  | unit {a b c d : Char} {s : List Char} : isHex a = true → isHex b = true → isHex c = true → isHex d = true →
      IsBody s → IsBody ('\\' :: 'u' :: a :: b :: c :: d :: s)

theorem body_append {b : List Char} (h : IsBody b) (rest : List Char) : body (b ++ '"' :: rest) = some (b, rest) := by
  induction h with
  | nil => rfl
  | plain hc hquote hslash _ ih =>
    have hlow : ¬_ < 32 := Nat.not_lt.mpr hc
    rw [List.cons_append, body]
    · simp [hlow, hslash, ih]
    all_goals simp_all
  | simple hc _ ih =>
    rw [List.cons_append, List.cons_append, body]
    · simp [hc, ih]
    · rintro a b c d rest rfl
      simp [isSimpleEscape] at hc
  | unit ha hb hc hd _ ih =>
    simp only [List.cons_append, body, ha, hb, hc, hd, ih]
    rfl

theorem isBody_of_body {b : List Char} (h : body s = some (b, rest)) : IsBody b ∧ s = b ++ '"' :: rest := by
  fun_induction body s generalizing b rest with
  | case1 => cases h
  | case2 r =>
    cases h
    exact ⟨.nil, rfl⟩
  | case3 a b c d r hex ih =>
    obtain ⟨⟨t, r'⟩, ht, heq⟩ := Option.map_eq_some_iff.mp h
    cases heq
    obtain ⟨hbody, rfl⟩ := ih ht
    simp only [Bool.and_eq_true] at hex
    exact ⟨.unit hex.1.1.1 hex.1.1.2 hex.1.2 hex.2 hbody, rfl⟩
  | case4 => cases h
  | case5 c r _ hc ih =>
    obtain ⟨⟨t, r'⟩, ht, heq⟩ := Option.map_eq_some_iff.mp h
    cases heq
    obtain ⟨hbody, rfl⟩ := ih ht
    exact ⟨.simple hc hbody, rfl⟩
  | case6 => cases h
  | case7 => cases h
  | case8 c r hquote _ _ hc ih =>
    obtain ⟨⟨t, r'⟩, ht, heq⟩ := Option.map_eq_some_iff.mp h
    cases heq
    obtain ⟨hbody, rfl⟩ := ih ht
    obtain ⟨hlow, hslash⟩ : ¬c.toNat < 32 ∧ c ≠ '\\' := by simpa using hc
    exact ⟨.plain (Nat.not_lt.mp hlow) hquote hslash hbody, rfl⟩

/-! ## Numbers -/

/-- One digit or more. -/
def IsDigits (ds : List Char) : Prop :=
  ds ≠ [] ∧ ∀ d ∈ ds, d.isDigit = true

/-- Whether a text does not start with a digit. -/
def NoDigit (s : List Char) : Prop :=
  ∀ c ∈ s.head?, c.isDigit = false

/-- A point and digits, or nothing. -/
inductive FractionText : List Char → List Char → Prop
  | absent : FractionText [] []
  | present {ds : List Char} : IsDigits ds → FractionText ds ('.' :: ds)

/-- The sign of an exponent; a missing one is a plus. -/
inductive SignText : Bool → List Char → Prop
  | none : SignText false []
  | plus : SignText false ['+']
  | minus : SignText true ['-']

/-- The mark of an exponent, its sign and its digits, or nothing. -/
inductive ExponentText : Option (Bool × List Char) → List Char → Prop
  | absent : ExponentText none []
  | present {mark : Char} {negative : Bool} {sign ds : List Char} : mark = 'e' ∨ mark = 'E' →
    SignText negative sign →
      IsDigits ds → ExponentText (some (negative, ds)) (mark :: (sign ++ ds))

/-- A numeral and a text of it. -/
inductive NumeralText : Numeral → List Char → Prop
  | mk {negative : Bool} {whole ds f e : List Char} {x : Option (Bool × List Char)} : IsDigits whole →
      (∀ d more, whole ≠ '0' :: d :: more) → FractionText ds f → ExponentText x e →
      NumeralText ⟨negative, whole, ds, x⟩ ((if negative then ['-'] else []) ++ whole ++ f ++ e)

theorem digits_append {ds : List Char} (h : ∀ d ∈ ds, d.isDigit = true) (hrest : NoDigit rest) :
    digits (ds ++ rest) = (ds, rest) := by
  unfold digits
  rw [List.takeWhile_append_of_pos h, List.dropWhile_append_of_pos h]
  cases rest with
  | nil => simp
  | cons c rest =>
    have hc : c.isDigit = false := hrest c rfl
    simp [hc]

theorem eq_of_digits {ds : List Char} (h : digits s = (ds, rest)) :
    (∀ d ∈ ds, d.isDigit = true) ∧ s = ds ++ rest := by
  obtain ⟨rfl, rfl⟩ := Prod.mk.injEq .. ▸ h
  exact ⟨fun d hd => List.all_eq_true.mp List.all_takeWhile d hd, List.takeWhile_append_dropWhile.symm⟩

theorem fraction_append {ds f : List Char} (h : FractionText ds f) (hrest : NoDigit rest)
    (hpoint : ∀ r, rest ≠ '.' :: r) : fraction (f ++ rest) = some (ds, rest) := by
  cases h with
  | absent =>
    rw [List.nil_append, fraction]
    exact hpoint
  | present hds =>
    rw [List.cons_append, fraction, digits_append hds.2 hrest]
    cases ds with
    | nil => exact absurd rfl hds.1
    | cons d ds => rfl

theorem fractionText_of_fraction {ds : List Char} (h : fraction s = some (ds, rest)) :
    ∃ f, FractionText ds f ∧ s = f ++ rest := by
  unfold fraction at h
  split at h
  · next r =>
    split at h
    · cases h
    · next hne =>
      obtain ⟨hds, rfl⟩ := eq_of_digits (Option.some.inj h)
      refine ⟨'.' :: ds, .present ⟨?_, hds⟩, rfl⟩
      rintro rfl
      exact hne rest (Option.some.inj h)
  · cases h
    exact ⟨[], .absent, rfl⟩

theorem exponent_append {x : Option (Bool × List Char)} {e : List Char} (h : ExponentText x e) (hrest : NoDigit rest)
    (hmark : ∀ r, rest ≠ 'e' :: r ∧ rest ≠ 'E' :: r) : exponent (e ++ rest) = some (x, rest) := by
  cases h with
  | absent =>
    cases rest with
    | nil => rfl
    | cons c r =>
      obtain ⟨he, hE⟩ : c ≠ 'e' ∧ c ≠ 'E' := by simpa using hmark r
      unfold exponent
      simp [he, hE]
  | @present mark negative sign ds hm hsign hds =>
    cases ds with
    | nil => exact absurd rfl hds.1
    | cons d ds =>
      have hd : d.isDigit = true := hds.2 d (List.mem_cons_self ..)
      have hplus : d ≠ '+' := fun h => by simp [h] at hd
      have hminus : d ≠ '-' := fun h => by simp [h] at hd
      have htaken := digits_append hds.2 hrest
      unfold exponent
      cases hsign <;> simp_all

theorem exponentText_of_exponent {x : Option (Bool × List Char)} (h : exponent s = some (x, rest)) :
    ∃ e, ExponentText x e ∧ s = e ++ rest := by
  unfold exponent at h
  split at h
  · next c r =>
    split at h
    · next hmark =>
      have hmark : c = 'e' ∨ c = 'E' := by simpa using hmark
      -- The three signs, and then the digits after each.
      split at h
      next negative t hsign =>
        have hsigned : ∃ sign, SignText negative sign ∧ r = sign ++ t := by
          split at hsign
          · cases hsign
            exact ⟨_, .plus, rfl⟩
          · cases hsign
            exact ⟨_, .minus, rfl⟩
          · cases hsign
            exact ⟨_, .none, rfl⟩
        obtain ⟨sign, hs, rfl⟩ := hsigned
        split at h
        · cases h
        · next ds u hne hdigits =>
          cases h
          obtain ⟨hds, rfl⟩ := eq_of_digits hdigits
          refine ⟨_, .present hmark hs ⟨?_, hds⟩, by simp⟩
          rintro rfl
          exact hne rfl
    · cases h
      exact ⟨[], .absent, rfl⟩
  · cases h
    exact ⟨[], .absent, rfl⟩

theorem Ends.head (h : Ends s) : ∀ c ∈ s.head?, c ∈ [' ', '\n', '\t', '\r', ',', ']', '\x7d'] := by
  intro c hc
  rcases h c hc with hs | rfl | rfl | rfl
  · rcases cases_isSpace hs with rfl | rfl | rfl | rfl <;> decide
  all_goals decide

theorem Ends.noDigit (h : Ends s) : NoDigit s := by
  have hall : [' ', '\n', '\t', '\r', ',', ']', '\x7d'].all (fun c => !c.isDigit) = true := by decide
  intro c hc
  simpa using List.all_eq_true.mp hall c (h.head c hc)

theorem Ends.ne_cons {c : Char} (h : Ends s) (hc : c ∉ [' ', '\n', '\t', '\r', ',', ']', '\x7d']) (r : List Char) :
    s ≠ c :: r := by
  rintro rfl
  exact hc (h.head c rfl)

theorem ExponentText.head {x : Option (Bool × List Char)} {e : List Char} (h : ExponentText x e) (hrest : Ends rest) :
    NoDigit (e ++ rest) ∧ ∀ r, e ++ rest ≠ '.' :: r := by
  cases h with
  | absent => exact ⟨hrest.noDigit, hrest.ne_cons (by decide)⟩
  | present hmark _ _ =>
    refine ⟨fun c hc => ?_, fun r hr => ?_⟩
    · obtain rfl : _ = c := by simpa using hc
      rcases hmark with rfl | rfl <;> rfl
    · obtain ⟨rfl, -⟩ := List.cons.inj hr
      rcases hmark with h | h <;> cases h

theorem FractionText.noDigit {ds f : List Char} (h : FractionText ds f) (hs : NoDigit s) : NoDigit (f ++ s) := by
  cases h with
  | absent => exact hs
  | present _ =>
    intro c hc
    obtain rfl : '.' = c := by simpa using hc
    rfl

/-- A numeral is taken whole where the text ends or goes on as after a value. -/
theorem numeral_append {n : Numeral} {t : List Char} (h : NumeralText n t) (hrest : Ends rest) :
    numeral (t ++ rest) = some (n, rest) := by
  obtain ⟨hwhole, hzero, hf, hx⟩ := h
  rename_i negative whole ds f e x
  obtain ⟨hexponent, hpoint⟩ := hx.head hrest
  have hdigits := digits_append hwhole.2 (hf.noDigit hexponent)
  have hfraction := fraction_append hf hexponent hpoint
  have hx := exponent_append hx hrest.noDigit fun r => ⟨hrest.ne_cons (by decide) r, hrest.ne_cons (by decide) r⟩
  unfold numeral
  cases whole with
  | nil => exact absurd rfl hwhole.1
  | cons d more =>
    have hminus : d ≠ '-' := by
      rintro rfl
      exact absurd (hwhole.2 '-' (List.mem_cons_self ..)) (by decide)
    split
    next sign u hsign =>
      obtain ⟨rfl, rfl⟩ : negative = sign ∧ d :: more ++ (f ++ (e ++ rest)) = u := by
        cases negative <;> simpa [hminus] using hsign
      rw [hdigits]
      split
      · next hnone => cases hnone
      · next hlead =>
        cases hlead
        exact absurd rfl (hzero _ _)
      · next heq =>
        cases heq
        simp [hfraction, hx]

theorem numeralText_of_numeral {n : Numeral} (h : numeral s = some (n, rest)) :
    ∃ t, NumeralText n t ∧ s = t ++ rest := by
  unfold numeral at h
  split at h
  next negative u hsign =>
    have hs : s = (if negative then ['-'] else []) ++ u := by
      split at hsign <;> cases hsign <;> rfl
    split at h
    · cases h
    · cases h
    · next whole _ hne hzero hdigits =>
      obtain ⟨hwhole, rfl⟩ := eq_of_digits hdigits
      obtain ⟨⟨ds, _⟩, hfraction, h⟩ := Option.bind_eq_some_iff.mp h
      obtain ⟨⟨x, _⟩, hexponent, h⟩ := Option.bind_eq_some_iff.mp h
      cases h
      obtain ⟨f, hf, rfl⟩ := fractionText_of_fraction hfraction
      obtain ⟨e, hx, rfl⟩ := exponentText_of_exponent hexponent
      exact ⟨_, .mk ⟨hne, hwhole⟩ hzero hf hx, by simp [hs]⟩

end AdmissionWatch.Json.Raw
