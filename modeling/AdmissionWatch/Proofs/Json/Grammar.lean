import AdmissionWatch.Proofs.Json.Token

/-!
# The grammar of JSON

Which texts a value has, blanks included, as an inductive relation, and that the reader decides it:
a text is read as a value exactly when it is a text of that value (`read?_eq_some_iff`). Nothing is
asked of the value, so this holds at any depth of nesting and of texts that are only skipped.
-/

namespace AdmissionWatch.Json.Raw

/-- A quoted key and its colon. -/
inductive KeyText : List Char → List Char → Prop
  | mk {g k g' : List Char} : Gap g → IsBody k → Gap g' → KeyText k (g ++ '"' :: (k ++ '"' :: (g' ++ [':'])))

mutual

/-- A value and a text of it that starts and ends with the value. -/
inductive BareText : Raw → List Char → Prop
  | null : BareText null ['n', 'u', 'l', 'l']
  | yes : BareText (bool true) ['t', 'r', 'u', 'e']
  | no : BareText (bool false) ['f', 'a', 'l', 's', 'e']
  | num {n : Numeral} {t : List Char} : NumeralText n t → BareText (num n) t
  | str {b : List Char} : IsBody b → BareText (str b) ('"' :: (b ++ ['"']))
  | noItems {g : List Char} : Gap g → BareText (arr []) ('[' :: (g ++ [']']))
  | arr {vs : List Raw} {t : List Char} : ItemsText vs t → BareText (arr vs) ('[' :: (t ++ [']']))
  | noMembers {g : List Char} : Gap g → BareText (obj []) ('\x7b' :: (g ++ ['\x7d']))
  | obj {ms : List (List Char × Raw)} {t : List Char} : MembersText ms t →
    BareText (obj ms) ('\x7b' :: (t ++ ['\x7d']))

/-- A value and a text of it. -/
inductive TextOf : Raw → List Char → Prop
  | mk {v : Raw} {g t g' : List Char} : Gap g → BareText v t → Gap g' → TextOf v (g ++ (t ++ g'))

/-- Items with commas between them. -/
inductive ItemsText : List Raw → List Char → Prop
  | last {v : Raw} {t : List Char} : TextOf v t → ItemsText [v] t
  | more {v : Raw} {vs : List Raw} {t u : List Char} : TextOf v t → ItemsText vs u →
    ItemsText (v :: vs) (t ++ ',' :: u)

/-- Members with commas between them. -/
inductive MembersText : List (List Char × Raw) → List Char → Prop
  | last {k : List Char} {v : Raw} {s t : List Char} : KeyText k s → TextOf v t → MembersText [(k, v)] (s ++ t)
  | more {k : List Char} {v : Raw} {ms : List (List Char × Raw)} {s t u : List Char} : KeyText k s → TextOf v t →
      MembersText ms u → MembersText ((k, v) :: ms) (s ++ (t ++ ',' :: u))

end

variable {fuel : Nat} {v : Raw} {vs : List Raw} {ms : List (List Char × Raw)} {s t g rest : List Char}

/-! ## Where a text starts -/

theorem NumeralText.head {n : Numeral} (h : NumeralText n t) :
    ∃ c u, t = c :: u ∧ (c = '-' ∨ c.isDigit = true) := by
  obtain ⟨hwhole, -, -, -⟩ := h
  rename_i negative whole ds f e x
  cases negative with
  | true => exact ⟨'-', _, rfl, .inl rfl⟩
  | false =>
    cases whole with
    | nil => exact absurd rfl hwhole.1
    | cons d whole => exact ⟨d, _, rfl, .inr (hwhole.2 d (List.mem_cons_self ..))⟩

/-- A value starts neither with a blank nor with a closing bracket. -/
theorem BareText.head (h : BareText v t) : ∃ c u, t = c :: u ∧ isSpace c = false ∧ c ≠ ']' := by
  cases h with
  | num hn =>
    obtain ⟨c, u, rfl, hc⟩ := hn.head
    refine ⟨c, u, rfl, Bool.eq_false_iff.mpr fun hs => ?_, ?_⟩
    · rcases cases_isSpace hs with rfl | rfl | rfl | rfl <;> revert hc <;> decide
    · rintro rfl
      revert hc
      decide
  | _ => exact ⟨_, _, rfl, rfl, by decide⟩

theorem BareText.length_pos (h : BareText v t) : 0 < t.length := by
  obtain ⟨c, u, rfl, -⟩ := h.head
  exact Nat.succ_pos _

theorem BareText.skip (h : BareText v t) (hg : Gap g) (rest : List Char) : skip (g ++ (t ++ rest)) = t ++ rest := by
  obtain ⟨c, u, rfl, hc, -⟩ := h.head
  rw [skip_gap hg]
  exact skip_cons hc _

theorem TextOf.skip (h : TextOf v t) (rest : List Char) : ∃ c u, skip (t ++ rest) = c :: u ∧ c ≠ ']' := by
  cases h with
  | @mk _ g t g' hg hv _ =>
    obtain ⟨c, u, ht, -, hc⟩ := hv.head
    refine ⟨c, u ++ (g' ++ rest), ?_, hc⟩
    rw [List.append_assoc, List.append_assoc, hv.skip hg, ht]
    rfl

theorem ItemsText.skip (h : ItemsText vs t) (rest : List Char) : ∃ c u, skip (t ++ rest) = c :: u ∧ c ≠ ']' := by
  cases h with
  | last hv => exact hv.skip rest
  | more hv _ =>
    rw [List.append_assoc]
    exact hv.skip _

theorem KeyText.body {k : List Char} (h : KeyText k s) : IsBody k := by
  obtain ⟨-, hk, -⟩ := h
  exact hk

theorem KeyText.skip {k : List Char} (h : KeyText k s) (rest : List Char) :
    ∃ g, Gap g ∧ Raw.skip (s ++ rest) = '"' :: (k ++ '"' :: (g ++ ':' :: rest)) := by
  obtain ⟨hg, -, hg'⟩ := h
  rename_i g g'
  refine ⟨g', hg', ?_⟩
  rw [List.append_assoc, List.cons_append, skip_gap_cons hg rfl]
  simp

theorem MembersText.skip (h : MembersText ms t) (rest : List Char) : ∃ u, Raw.skip (t ++ rest) = '"' :: u := by
  cases h with
  | last hk _ =>
    obtain ⟨g, -, hs⟩ := hk.skip (_ ++ rest)
    exact ⟨_, by rw [List.append_assoc, hs]⟩
  | more hk _ _ =>
    obtain ⟨g, -, hs⟩ := hk.skip ((_ ++ ',' :: _) ++ rest)
    exact ⟨_, by rw [List.append_assoc, hs]⟩

theorem value_skip (fuel : Nat) (s : List Char) : value fuel (skip s) = value fuel s := by
  cases fuel with
  | zero => rfl
  | succ fuel => rw [value, value, skip_skip]

theorem items_skip (fuel : Nat) (s : List Char) : items fuel (skip s) = items fuel s := by
  cases fuel with
  | zero => rfl
  | succ fuel => rw [items, items, value_skip]

theorem members_skip (fuel : Nat) (s : List Char) : members fuel (skip s) = members fuel s := by
  cases fuel with
  | zero => rfl
  | succ fuel => rw [members, members, skip_skip]

/-! ## The reader takes a text of a value -/

/-- What the reader takes with fuel for texts up to a length, as a value, as items and as members. -/
structure Takes (fuel : Nat) : Prop where
  value : ∀ {v t g rest}, BareText v t → Gap g → Ends rest → 2 * t.length ≤ fuel →
    Raw.value fuel (g ++ (t ++ rest)) = some (v, rest)
  items : ∀ {vs t rest}, ItemsText vs t → 2 * t.length + 1 ≤ fuel →
    Raw.items fuel (t ++ ']' :: rest) = some (vs, rest)
  members : ∀ {ms t rest}, MembersText ms t → 2 * t.length + 1 ≤ fuel →
    Raw.members fuel (t ++ '\x7d' :: rest) = some (ms, rest)

/-- Past a text with blanks around it what follows is next to be skipped to. -/
theorem Takes.text {c : Char} (h : Takes fuel) (hv : TextOf v t) (hc : c = ',' ∨ c = ']' ∨ c = '\x7d')
    (hfuel : 2 * t.length ≤ fuel) (rest : List Char) :
    ∃ s, Raw.value fuel (t ++ c :: rest) = some (v, s) ∧ Raw.skip s = c :: rest := by
  cases hv with
  | @mk _ g t g' hg hv hg' =>
    have hspace : isSpace c = false := by
      rcases hc with rfl | rfl | rfl <;> rfl
    have hrest : Ends (g' ++ c :: rest) := .gap hg' fun d hd => by
      obtain rfl : c = d := by simpa using hd
      exact .inr hc
    simp only [List.length_append] at hfuel
    refine ⟨g' ++ c :: rest, ?_, skip_gap_cons hg' hspace _⟩
    rw [List.append_assoc, List.append_assoc]
    exact h.value hv hg hrest (by omega)

theorem Takes.value_succ (h : Takes fuel) (hv : BareText v t) (hg : Gap g) (hrest : Ends rest)
    (hfuel : 2 * t.length ≤ fuel + 1) : Raw.value (fuel + 1) (g ++ (t ++ rest)) = some (v, rest) := by
  rw [Raw.value, hv.skip hg]
  cases hv with
  | null => rfl
  | yes => rfl
  | no => rfl
  | num hn =>
    have htaken := numeral_append hn hrest
    obtain ⟨c, u, rfl, hc⟩ := hn.head
    split
    case h_7 => rw [htaken]; rfl
    all_goals
      next heq =>
        obtain ⟨rfl, -⟩ := List.cons.inj heq
        exact absurd hc (by decide)
  | str hb =>
    have htaken := body_append hb rest
    simp [htaken]
  | noItems hgap =>
    have hclose : Raw.skip (_ ++ ']' :: rest) = ']' :: rest := skip_gap_cons hgap rfl _
    simp [hclose]
  | arr hvs =>
    simp only [List.length_cons, List.length_append, List.length_nil] at hfuel
    have htaken : Raw.items fuel (_ ++ ']' :: rest) = some (_, rest) := h.items hvs (by omega)
    obtain ⟨c, u, hstart, hc⟩ := hvs.skip (']' :: rest)
    rw [← items_skip, hstart] at htaken
    simp [hstart, hc, htaken]
  | noMembers hgap =>
    have hclose : Raw.skip (_ ++ '\x7d' :: rest) = '\x7d' :: rest := skip_gap_cons hgap rfl _
    simp [hclose]
  | obj hms =>
    simp only [List.length_cons, List.length_append, List.length_nil] at hfuel
    have htaken : Raw.members fuel (_ ++ '\x7d' :: rest) = some (_, rest) := h.members hms (by omega)
    obtain ⟨u, hstart⟩ := hms.skip ('\x7d' :: rest)
    rw [← members_skip, hstart] at htaken
    simp [hstart, htaken]

theorem Takes.items_succ (h : Takes fuel) (hvs : ItemsText vs t) (hfuel : 2 * t.length + 1 ≤ fuel + 1) :
    Raw.items (fuel + 1) (t ++ ']' :: rest) = some (vs, rest) := by
  rw [Raw.items]
  cases hvs with
  | last hv =>
    obtain ⟨s, htaken, hs⟩ := h.text hv (.inr (.inl rfl)) (by omega) rest
    simp [htaken, hs]
  | @more v vs t u hv hvs =>
    simp only [List.length_cons, List.length_append] at hfuel
    obtain ⟨s, htaken, hs⟩ := h.text hv (.inl rfl) (by omega) (u ++ ']' :: rest)
    have hmore : Raw.items fuel (u ++ ']' :: rest) = some (vs, rest) := h.items hvs (by omega)
    rw [List.append_assoc, List.cons_append, htaken]
    simp [hs, hmore]

theorem Takes.members_succ (h : Takes fuel) (hms : MembersText ms t) (hfuel : 2 * t.length + 1 ≤ fuel + 1) :
    Raw.members (fuel + 1) (t ++ '\x7d' :: rest) = some (ms, rest) := by
  rw [Raw.members]
  cases hms with
  | @last k v s t hk hv =>
    simp only [List.length_append] at hfuel
    obtain ⟨g, hg, hstart⟩ := hk.skip (t ++ '\x7d' :: rest)
    obtain ⟨s', htaken, hs⟩ := h.text hv (.inr (.inr rfl)) (by omega) rest
    have hcolon : Raw.skip (g ++ ':' :: (t ++ '\x7d' :: rest)) = ':' :: (t ++ '\x7d' :: rest) :=
      skip_gap_cons hg rfl _
    rw [List.append_assoc, hstart]
    simp only [body_append hk.body, hcolon, htaken, hs]
  | @more k v ms s t u hk hv hms =>
    simp only [List.length_append, List.length_cons] at hfuel
    obtain ⟨g, hg, hstart⟩ := hk.skip (t ++ ',' :: (u ++ '\x7d' :: rest))
    obtain ⟨s', htaken, hs⟩ := h.text hv (.inl rfl) (by omega) (u ++ '\x7d' :: rest)
    have hmore : Raw.members fuel (u ++ '\x7d' :: rest) = some (ms, rest) := h.members hms (by omega)
    have hcolon : Raw.skip (g ++ ':' :: (t ++ ',' :: (u ++ '\x7d' :: rest))) =
        ':' :: (t ++ ',' :: (u ++ '\x7d' :: rest)) :=
      skip_gap_cons hg rfl _
    rw [List.append_assoc, List.append_assoc, List.cons_append, hstart]
    simp only [body_append hk.body, hcolon, htaken, hs, hmore, Option.map_some]

theorem takes (fuel : Nat) : Takes fuel := by
  induction fuel with
  | zero =>
    refine ⟨fun hv _ _ hfuel => ?_, fun _ hfuel => ?_, fun _ hfuel => ?_⟩
    · have := hv.length_pos
      omega
    all_goals omega
  | succ fuel ih => exact ⟨ih.value_succ, ih.items_succ, ih.members_succ⟩

/-! ## What the reader takes is a text of a value -/

/-- What it is that the reader takes. -/
structure Sound (fuel : Nat) : Prop where
  value : ∀ {v s rest}, Raw.value fuel s = some (v, rest) → ∃ g t, Gap g ∧ BareText v t ∧ s = g ++ (t ++ rest)
  items : ∀ {vs s rest}, Raw.items fuel s = some (vs, rest) → ∃ t, ItemsText vs t ∧ s = t ++ ']' :: rest
  members : ∀ {ms s rest}, Raw.members fuel s = some (ms, rest) →
    ∃ t, MembersText ms t ∧ s = t ++ '\x7d' :: rest

theorem Sound.value_succ (h : Sound fuel) (hv : Raw.value (fuel + 1) s = some (v, rest)) :
    ∃ g t, Gap g ∧ BareText v t ∧ s = g ++ (t ++ rest) := by
  obtain ⟨g, hg, hs⟩ := exists_gap s
  suffices hbare : ∃ t, BareText v t ∧ Raw.skip s = t ++ rest by
    obtain ⟨t, ht, hskip⟩ := hbare
    exact ⟨g, t, hg, ht, by rw [← hskip]; exact hs⟩
  clear hs
  rw [Raw.value] at hv
  split at hv
  · next hlit =>
    cases hv
    exact ⟨_, .null, hlit⟩
  · next hlit =>
    cases hv
    exact ⟨_, .yes, hlit⟩
  · next hlit =>
    cases hv
    exact ⟨_, .no, hlit⟩
  · next r hquote =>
    obtain ⟨⟨b, r'⟩, hb, heq⟩ := Option.map_eq_some_iff.mp hv
    cases heq
    obtain ⟨hbody, rfl⟩ := isBody_of_body hb
    exact ⟨_, .str hbody, by simp [hquote]⟩
  · next r hopen =>
    obtain ⟨g', hg', hr⟩ := exists_gap r
    split at hv
    · next hclose =>
      cases hv
      exact ⟨_, .noItems hg', by rw [hopen, hr, hclose]; simp⟩
    · obtain ⟨⟨vs, r'⟩, hvs, heq⟩ := Option.map_eq_some_iff.mp hv
      cases heq
      rw [items_skip] at hvs
      obtain ⟨t, ht, rfl⟩ := h.items hvs
      exact ⟨_, .arr ht, by simp [hopen]⟩
  · next r hopen =>
    obtain ⟨g', hg', hr⟩ := exists_gap r
    split at hv
    · next hclose =>
      cases hv
      exact ⟨_, .noMembers hg', by rw [hopen, hr, hclose]; simp⟩
    · obtain ⟨⟨ms, r'⟩, hms, heq⟩ := Option.map_eq_some_iff.mp hv
      cases heq
      rw [members_skip] at hms
      obtain ⟨t, ht, rfl⟩ := h.members hms
      exact ⟨_, .obj ht, by simp [hopen]⟩
  · obtain ⟨⟨n, r⟩, hn, heq⟩ := Option.map_eq_some_iff.mp hv
    cases heq
    obtain ⟨t, ht, hs⟩ := numeralText_of_numeral hn
    exact ⟨t, .num ht, hs⟩

/-- What was taken as a value, with the blanks that are skipped after it. -/
theorem Sound.text (h : Sound fuel) (hv : Raw.value fuel s = some (v, rest)) :
    ∃ t, TextOf v t ∧ s = t ++ Raw.skip rest := by
  obtain ⟨g, t, hg, ht, rfl⟩ := h.value hv
  obtain ⟨g', hg', hrest⟩ := exists_gap rest
  refine ⟨_, .mk hg ht hg', ?_⟩
  rw [List.append_assoc, List.append_assoc, ← hrest]

theorem Sound.items_succ (h : Sound fuel) (hvs : Raw.items (fuel + 1) s = some (vs, rest)) :
    ∃ t, ItemsText vs t ∧ s = t ++ ']' :: rest := by
  rw [Raw.items] at hvs
  split at hvs
  · cases hvs
  · next v r hv =>
    obtain ⟨t, ht, hs⟩ := h.text hv
    split at hvs
    · next hclose =>
      cases hvs
      exact ⟨t, .last ht, by rw [hs, hclose]⟩
    · next hcomma =>
      obtain ⟨⟨vs, r'⟩, hmore, heq⟩ := Option.map_eq_some_iff.mp hvs
      cases heq
      obtain ⟨u, hu, rfl⟩ := h.items hmore
      exact ⟨_, .more ht hu, by rw [hs, hcomma]; simp⟩
    · cases hvs

theorem Sound.members_succ (h : Sound fuel) (hms : Raw.members (fuel + 1) s = some (ms, rest)) :
    ∃ t, MembersText ms t ∧ s = t ++ '\x7d' :: rest := by
  obtain ⟨g, hg, hgap⟩ := exists_gap s
  rw [Raw.members] at hms
  split at hms
  · next r hquote =>
    split at hms
    · cases hms
    · next k r' hk =>
      obtain ⟨hbody, rfl⟩ := isBody_of_body hk
      obtain ⟨g', hg', hgap'⟩ := exists_gap r'
      split at hms
      · next r'' hcolon =>
        have hkey := KeyText.mk hg hbody hg'
        have hs : s = g ++ '"' :: (k ++ '"' :: (g' ++ [':'])) ++ r'' := by
          rw [hgap, hquote, hgap', hcolon]
          simp
        split at hms
        · cases hms
        · next v u hv =>
          obtain ⟨t, ht, rfl⟩ := h.text hv
          split at hms
          · next hclose =>
            cases hms
            exact ⟨_, .last hkey ht, by rw [hs, hclose]; simp⟩
          · next hcomma =>
            obtain ⟨⟨ms, _⟩, hmore, heq⟩ := Option.map_eq_some_iff.mp hms
            cases heq
            obtain ⟨w, hw, rfl⟩ := h.members hmore
            exact ⟨_, .more hkey ht hw, by rw [hs, hcomma]; simp⟩
          · cases hms
      · cases hms
  · cases hms

theorem sound (fuel : Nat) : Sound fuel := by
  induction fuel with
  | zero => constructor <;> intro _ _ _ h <;> cases h
  | succ fuel ih => exact ⟨ih.value_succ, ih.items_succ, ih.members_succ⟩

/-! ## Whole texts -/

theorem read?_eq_some_iff : read? s = some v ↔ TextOf v s := by
  unfold read?
  constructor
  · intro h
    split at h
    · next w r hw =>
      split at h
      · next hend =>
        cases h
        obtain ⟨t, ht, hs⟩ := (sound _).text hw
        rw [hend, List.append_nil] at hs
        exact hs ▸ ht
      · cases h
    · cases h
  · rintro ⟨hg, hv, hg'⟩
    rename_i g t g'
    have htaken := (takes (2 * (g ++ (t ++ g')).length + 2)).value hv hg (.gap hg' .nil)
      (by simp only [List.length_append]; omega)
    rw [List.append_nil] at htaken
    have hend : Raw.skip g' = [] := (List.append_nil g' ▸ skip_gap hg' []).trans rfl
    simp only [htaken, hend, if_true]

theorem TextOf.unique {w : Raw} (hv : TextOf v s) (hw : TextOf w s) : v = w :=
  Option.some.inj ((read?_eq_some_iff.mpr hv).symm.trans (read?_eq_some_iff.mpr hw))

/-- What starts with a brace is an object. -/
theorem TextOf.eq_obj (h : TextOf v s) (hopen : (Raw.skip s).head? = some '\x7b') : ∃ ms, v = obj ms := by
  obtain ⟨hg, hv, -⟩ := h
  rw [hv.skip hg] at hopen
  cases hv with
  | noMembers _ => exact ⟨[], rfl⟩
  | obj _ => exact ⟨_, rfl⟩
  | num hn =>
    obtain ⟨c, u, rfl, hc⟩ := hn.head
    obtain rfl : c = '\x7b' := Option.some.inj hopen
    exact absurd hc (by decide)
  | _ => exact absurd (Option.some.inj hopen) (by decide)

end AdmissionWatch.Json.Raw
