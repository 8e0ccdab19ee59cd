import AdmissionWatch.Proofs.Dict
import AdmissionWatch.Proofs.Json.Grammar
import AdmissionWatch.Proofs.Json.Quoted
import AdmissionWatch.Proofs.Text.Digits

/-!
# Values as written

The text of a value is a text of the raw value `ofJson` (`legible_of_plain`), and this raw value has the
value back as its meaning (`value?_ofJson`), when its numbers are integers of 64 bits, its objects are
maps and it does not nest too deep (`Plain`).
-/

namespace AdmissionWatch.Json

/-- Whether the numbers in a value are integers of 64 bits, signed or not, its objects are maps, and at
most `room` levels nest in it. -/
inductive Plain : (room : Nat) → Json → Prop
  | null {room : Nat} : Plain room .null
  | bool {room : Nat} (b : Bool) : Plain room (.bool b)
  | int {room : Nat} {n : Int} : -0x8000000000000000 ≤ n → n < 0x10000000000000000 → Plain room (.num (.int n))
  | str {room : Nat} (s : String) : Plain room (.str s)
  | arr {room : Nat} {vs : List Json} : (∀ v ∈ vs, Plain room v) → Plain (room + 1) (.arr vs)
  | obj {room : Nat} {ms : Fields} : Dict.Sorted ms → (∀ m ∈ ms, Plain room m.2) → Plain (room + 1) (.obj ms)

end AdmissionWatch.Json

namespace AdmissionWatch.Json.Raw

/-- The numeral that the text of a number is. -/
def numeralOf (n : Number) : Numeral :=
  ((numeral (numberText n)).map Prod.fst).getD default

mutual

/-- A value as it is written. -/
def ofJson : Json → Raw
  | .null => null
  | .bool b => bool b
  | .num n => num (numeralOf n)
  | .str s => str (escaped s.toList)
  | .arr vs => arr (ofItems vs)
  | .obj ms => obj (ofMembers ms)

/-- Items as they are written. -/
def ofItems : List Json → List Raw
  | [] => []
  | v :: vs => ofJson v :: ofItems vs

/-- Members as they are written. -/
def ofMembers : List (String × Json) → List (List Char × Raw)
  | [] => []
  | (key, v) :: ms => (escaped key.toList, ofJson v) :: ofMembers ms

end

/-! ## Integers -/

theorem numberText_int (n : Int) :
    numberText (.int n) = (if decide (n < 0) then ['-'] else []) ++ Nat.toDigits 10 n.natAbs := by
  show (toString n).toList = _
  rw [Int.toString_eq_repr]
  cases n with
  | ofNat m => exact Nat.toList_repr
  | negSucc m =>
    rw [if_pos (decide_eq_true (Int.negSucc_lt_zero m))]
    show ("-" ++ (m + 1).repr).toList = ['-'] ++ Nat.toDigits 10 (m + 1)
    rw [String.toList_append, Nat.toList_repr]
    rfl

theorem numeralText_int (n : Int) : NumeralText ⟨decide (n < 0), Nat.toDigits 10 n.natAbs, [], none⟩
    (numberText (.int n)) := by
  have hdigits : IsDigits (Nat.toDigits 10 n.natAbs) :=
    ⟨Nat.toDigits_ne_nil, fun d hd => Text.isDigit_of_mem_toDigits hd⟩
  rw [numberText_int, ← List.append_nil (_ ++ _), ← List.append_nil (_ ++ _)]
  exact .mk hdigits (Text.toDigits_ne_zero_cons _) .absent .absent

theorem numeralOf_int (n : Int) : numeralOf (.int n) = ⟨decide (n < 0), Nat.toDigits 10 n.natAbs, [], none⟩ := by
  have htaken := numeral_append (numeralText_int n) .nil
  rw [List.append_nil] at htaken
  unfold numeralOf
  rw [htaken]
  rfl

theorem le_foldl_digits (ds : List Char) (n : Nat) : n ≤ ds.foldl (fun n c => n * 10 + Text.digitValue c) n := by
  induction ds generalizing n with
  | nil => exact Nat.le_refl n
  | cons d ds ih => exact Nat.le_trans (by omega) (ih (n * 10 + Text.digitValue d))

/-- The digits of a number of 64 bits are all taken into the significand. -/
theorem absorb_eq {ds : List Char} {n : Nat} (h : ds.foldl (fun n c => n * 10 + Text.digitValue c) n < Numeral.limit) :
    Numeral.absorb n ds = (ds.foldl (fun n c => n * 10 + Text.digitValue c) n, 0) := by
  induction ds generalizing n with
  | nil => rfl
  | cons d ds ih =>
    have hnext : n * 10 + Text.digitValue d < Numeral.limit := Nat.lt_of_le_of_lt (le_foldl_digits ds _) h
    rw [Numeral.absorb, if_pos hnext]
    exact ih h

theorem number?_int {n : Int} (hleast : -0x8000000000000000 ≤ n) (hmost : n < 0x10000000000000000) :
    (numeralOf (.int n)).number? = some (.int n) := by
  have habsorbed : Numeral.absorb 0 (Nat.toDigits 10 n.natAbs) = (n.natAbs, 0) := by
    have hvalue : (Nat.toDigits 10 n.natAbs).foldl (fun n c => n * 10 + Text.digitValue c) 0 = n.natAbs :=
      Text.natOfDigits_toDigits n.natAbs
    have hfits : n.natAbs < Numeral.limit := by
      unfold Numeral.limit
      omega
    rw [absorb_eq (hvalue.symm ▸ hfits), hvalue]
  have hsignificand : (numeralOf (.int n)).significand = (n.natAbs, 0) := by
    rw [numeralOf_int]
    unfold Numeral.significand
    simp [habsorbed, Numeral.absorb]
  unfold Numeral.number?
  rw [hsignificand, numeralOf_int]
  by_cases hneg : n < 0
  · have hzero : ¬(n.natAbs = 0 ∨ 0x8000000000000000 < n.natAbs) := by omega
    have habs : -(n.natAbs : Int) = n := by omega
    simp only [hneg, decide_true, Bool.not_true, if_true, if_neg hzero, habs, Bool.false_eq_true, if_false]
  · have habs : (n.natAbs : Int) = n := by omega
    simp [hneg, habs]

/-! ## Values -/

theorem TextOf.of_bare {v : Raw} {t : List Char} (h : BareText v t) : TextOf v t := by
  have htext := TextOf.mk .nil h .nil
  rwa [List.append_nil] at htext

/-- Whether the text of a value is a text of its raw value. -/
def Legible (v : Json) : Prop :=
  BareText (ofJson v) (chars v)

theorem itemsText_itemChars {vs : List Json} (hne : vs ≠ []) (h : ∀ v ∈ vs, Legible v) :
    ItemsText (ofItems vs) (itemChars vs) := by
  induction vs with
  | nil => exact absurd rfl hne
  | cons v vs ih =>
    obtain ⟨hv, hvs⟩ := List.forall_mem_cons.mp h
    cases vs with
    | nil => exact .last (.of_bare hv)
    | cons w vs => exact .more (.of_bare hv) (ih (List.cons_ne_nil _ _) hvs)

theorem keyText (key : String) : KeyText (escaped key.toList) (quoted key ++ [':']) := by
  have hkey := KeyText.mk .nil (isBody_escaped key.toList) .nil
  unfold quoted
  simpa [escaped] using hkey

theorem membersText_memberChars {ms : List (String × Json)} (hne : ms ≠ []) (h : ∀ m ∈ ms, Legible m.2) :
    MembersText (ofMembers ms) (memberChars ms) := by
  induction ms with
  | nil => exact absurd rfl hne
  | cons m ms ih =>
    obtain ⟨key, v⟩ := m
    obtain ⟨hv, hms⟩ := List.forall_mem_cons.mp h
    cases ms with
    | nil =>
      have htext := MembersText.last (keyText key) (.of_bare hv)
      rwa [List.append_assoc] at htext
    | cons w ms =>
      have htext := MembersText.more (keyText key) (.of_bare hv) (ih (List.cons_ne_nil _ _) hms)
      show MembersText ((escaped key.toList, ofJson v) :: ofMembers (w :: ms))
        (quoted key ++ ':' :: chars v ++ ',' :: memberChars (w :: ms))
      simpa using htext

theorem Legible.null : Legible .null :=
  BareText.null

theorem Legible.bool (b : Bool) : Legible (.bool b) := by
  cases b with
  | true => exact BareText.yes
  | false => exact BareText.no

theorem Legible.int (n : Int) : Legible (.int n) := by
  unfold Legible Json.int ofJson
  rw [numeralOf_int]
  exact .num (numeralText_int n)

theorem Legible.str (s : String) : Legible (.str s) :=
  BareText.str (isBody_escaped s.toList)

theorem Legible.arr {vs : List Json} (h : ∀ v ∈ vs, Legible v) : Legible (.arr vs) := by
  cases vs with
  | nil => exact BareText.noItems .nil
  | cons v vs => exact BareText.arr (itemsText_itemChars (List.cons_ne_nil _ _) h)

theorem Legible.obj {ms : List (String × Json)} (h : ∀ m ∈ ms, Legible m.2) : Legible (.obj ms) := by
  cases ms with
  | nil => exact BareText.noMembers .nil
  | cons m ms => exact BareText.obj (membersText_memberChars (List.cons_ne_nil _ _) h)

theorem Legible.ofTexts (texts : Dict String) : Legible (.ofTexts texts) := by
  refine .obj fun m hm => ?_
  obtain ⟨e, -, rfl⟩ := List.mem_map.mp hm
  exact .str e.2

theorem legible_of_plain {room : Nat} {v : Json} (h : Plain room v) : Legible v := by
  induction h with
  | null => exact .null
  | bool b => exact .bool b
  | int => exact .int _
  | str s => exact .str s
  | arr _ ih => exact .arr ih
  | obj _ _ ih => exact .obj ih

theorem textOf_text {ms : List (String × Json)} (h : ∀ m ∈ ms, Legible m.2) :
    TextOf (.obj (ofMembers ms)) (text (.obj ms)).toList := by
  unfold text
  rw [String.toList_ofList]
  exact .of_bare (Legible.obj h)

theorem values?_ofItems {room : Nat} {vs : List Json} (h : ∀ v ∈ vs, value? room (ofJson v) = some v) :
    values? room (ofItems vs) = some vs := by
  induction vs with
  | nil => rfl
  | cons v vs ih =>
    obtain ⟨hv, hvs⟩ := List.forall_mem_cons.mp h
    rw [ofItems, values?, hv, ih hvs]
    rfl

theorem fields?_ofMembers {room : Nat} {ms : List (String × Json)}
    (h : ∀ m ∈ ms, value? room (ofJson m.2) = some m.2) : fields? room (ofMembers ms) = some ms := by
  induction ms with
  | nil => rfl
  | cons m ms ih =>
    obtain ⟨key, v⟩ := m
    obtain ⟨hv, hms⟩ := List.forall_mem_cons.mp h
    rw [ofMembers, fields?, unescape_escaped, hv, ih hms]
    simp

theorem value?_ofJson {room : Nat} {v : Json} (h : Plain room v) : value? room (ofJson v) = some v := by
  induction h with
  | null => rfl
  | bool b => rfl
  | int hleast hmost =>
    rw [ofJson, value?, number?_int hleast hmost]
    rfl
  | str s =>
    rw [ofJson, value?, unescape_escaped]
    simp
  | arr _ ih =>
    rw [ofJson, value?, if_neg (Nat.succ_ne_zero _), Nat.add_sub_cancel, values?_ofItems ih]
    rfl
  | obj hsorted _ ih =>
    rw [ofJson, value?, if_neg (Nat.succ_ne_zero _), Nat.add_sub_cancel, fields?_ofMembers ih, Option.map_some,
      Dict.ofEntries_of_sorted hsorted]

end AdmissionWatch.Json.Raw
