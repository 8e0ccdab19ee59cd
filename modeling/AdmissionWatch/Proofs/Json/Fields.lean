import Mathlib.Data.List.Nodup
import AdmissionWatch.Json.Record
import AdmissionWatch.Proofs.Json.Written

/-!
# Fields as written

A record is written as an object of its fields in their order, without those that have no value, and
exactly these fields are found when it is read (`record?_present`). Each kind of field is read back from
how it is written.
-/

namespace AdmissionWatch.Json.Raw

/-- The values of fields as they are found. -/
def foundOf (fields : List (String × Option Json)) : Found :=
  fields.map fun f => f.2.map ofJson

theorem placeOf?_append {before after : List (String × Option Json)} {name : String}
    (h : ∀ f ∈ before, f.1 ≠ name) (v : Option Json) :
    placeOf? ((before ++ (name, v) :: after).map fun f => [f.1]) name = some before.length := by
  have hbefore : (before.map fun f => [f.1]).findIdx? (·.contains name) = none := by
    rw [List.findIdx?_eq_none_iff]
    intro ns hns
    obtain ⟨f, hf, rfl⟩ := List.mem_map.mp hns
    simpa using (h f hf).symm
  unfold placeOf?
  rw [List.map_append, List.map_cons, List.findIdx?_append, hbefore]
  simp [List.findIdx?_cons]

theorem addMember_present {before after : List (String × Option Json)} {name : String}
    (h : ∀ f ∈ before, f.1 ≠ name) (v : Json) :
    addMember ((before ++ (name, some v) :: after).map fun f => [f.1])
      (foundOf before ++ none :: after.map fun _ => none)
      (escaped name.toList, ofJson v) = some (foundOf (before ++ [(name, some v)]) ++ after.map fun _ => none) := by
  have hlength : (foundOf before).length = before.length := List.length_map _
  unfold addMember
  rw [unescape_escaped]
  simp only [Option.bind_eq_bind, Option.bind_some, String.ofList_toList, placeOf?_append h (some v), ← hlength]
  simp [foundOf]

theorem foldlM_present {before after : List (String × Option Json)} (h : ((before ++ after).map Prod.fst).Nodup) :
    (ofMembers (present after)).foldlM (addMember ((before ++ after).map fun f => [f.1]))
      (foundOf before ++ after.map fun _ => none) = some (foundOf (before ++ after)) := by
  induction after generalizing before with
  | nil => simp [present, ofMembers]
  | cons f after ih =>
    obtain ⟨name, v⟩ := f
    have hmove : before ++ (name, v) :: after = before ++ [(name, v)] ++ after := by simp
    have hrest := ih (hmove ▸ h)
    rw [← hmove] at hrest
    cases v with
    | none =>
      have hsame : foundOf (before ++ [(name, none)]) = foundOf before ++ [none] := by simp [foundOf]
      rw [hsame, List.append_assoc] at hrest
      exact hrest
    | some v =>
      have hname : ∀ f ∈ before, f.1 ≠ name := by
        intro f hf heq
        rw [List.map_append] at h
        exact (List.nodup_append.mp h).2.2 _ (List.mem_map_of_mem hf) name (List.mem_cons_self ..) heq
      show ((escaped name.toList, ofJson v) :: ofMembers (present after)).foldlM _ _ = _
      rw [List.foldlM_cons, List.map_cons, addMember_present hname]
      exact hrest

/-- The fields of a record as it is written are found, each at its place. -/
theorem record?_present {names : List (List String)} {fields : List (String × Option Json)}
    (hnames : names = fields.map fun f => [f.1]) (hnodup : names.Nodup) :
    record? names (.obj (ofMembers (present fields))) = some (foundOf fields) := by
  subst hnames
  have hkeys : (fields.map Prod.fst).Nodup := by
    refine List.Nodup.of_map (fun name => [name]) ?_
    rw [List.map_map]
    exact hnodup
  have hall := @foldlM_present [] fields hkeys
  rw [List.nil_append] at hall
  unfold record?
  rw [List.map_map]
  exact hall

theorem forall_mem_present {fields : List (String × Option Json)} {P : Json → Prop}
    (h : ∀ f ∈ fields, ∀ v ∈ f.2, P v) : ∀ m ∈ present fields, P m.2 := by
  intro m hm
  obtain ⟨⟨name, v⟩, hf, hv⟩ := List.mem_filterMap.mp hm
  obtain ⟨w, hw, rfl⟩ := Option.map_eq_some_iff.mp hv
  exact h _ hf w hw

/-- A record is read from its text as the object of its fields. -/
theorem read?_present {fields : List (String × Option Json)} (h : ∀ f ∈ fields, ∀ v ∈ f.2, Legible v) :
    read? (text (.obj (present fields))).toList = some (.obj (ofMembers (present fields))) :=
  read?_eq_some_iff.mpr (textOf_text (forall_mem_present h))

section
variable {α β : Type} {found : Found} {i : Nat} {raw : Raw} {read? : Raw → Option α} {x : α}
  {next : α → Option β} {y : Option β}

/-- Reading goes on with the value of a field that is found. -/
theorem fieldOr_bind {absent : α} (hfound : found.getD i none = some raw) (hread : read? raw = some x)
    (hnext : next x = y) : (fieldOr found i absent read? >>= next) = y := by
  unfold fieldOr
  rw [hfound]
  show (read? raw).bind next = y
  rw [hread]
  exact hnext

theorem field?_bind (hfound : found.getD i none = some raw) (hread : read? raw = some x) (hnext : next x = y) :
    (field? found i read? >>= next) = y := by
  unfold field?
  rw [hfound]
  show (read? raw).bind next = y
  rw [hread]
  exact hnext

end

/-! ## Fields of each kind -/

theorem string?_str (s : String) : string? (ofJson (.str s)) = some s := by
  simp [ofJson, string?, unescape_escaped]

theorem bool?_bool (b : Bool) : bool? (ofJson (.bool b)) = some b :=
  rfl

theorem word?_str {α : Type} (meaning? : String → Option α) (s : String) :
    word? meaning? (ofJson (.str s)) = meaning? s := by
  simp [ofJson, word?, unescape_escaped]

theorem intIn?_int {least most n : Int} (hleast : least ≤ n) (hmost : n ≤ most) (h : -0x8000000000000000 ≤ n)
    (h' : n < 0x10000000000000000) : intIn? least most (ofJson (.int n)) = some n := by
  unfold intIn? Json.int
  simp only [ofJson, number?_int h h', hleast, hmost, and_self, if_true]

theorem fieldsAt?_obj {depth : Nat} {fields : Fields} (h : Plain (maxDepth - depth) (.obj fields)) :
    fieldsAt? depth (ofJson (.obj fields)) = some fields := by
  unfold fieldsAt?
  rw [value?_ofJson h]

theorem listOf?_map {α : Type} {read? : Raw → Option α} {toJson : α → Json} {xs : List α}
    (h : ∀ x ∈ xs, read? (ofJson (toJson x)) = some x) :
    listOf? read? (ofJson (.arr (xs.map toJson))) = some xs := by
  show (ofItems (xs.map toJson)).mapM read? = some xs
  induction xs with
  | nil => rfl
  | cons x xs ih =>
    obtain ⟨hx, hxs⟩ := List.forall_mem_cons.mp h
    rw [List.map_cons, ofItems, List.mapM_cons, hx, ih hxs]
    rfl

theorem dictOf?_map {α : Type} {read? : Raw → Option α} {toJson : α → Json} {d : Dict α}
    (hsorted : Dict.Sorted d) (h : ∀ e ∈ d, read? (ofJson (toJson e.2)) = some e.2) :
    dictOf? read? (ofJson (.obj (d.map fun (key, v) => (key, toJson v)))) = some d := by
  have hmembers : (ofMembers (d.map fun (key, v) => (key, toJson v))).mapM (fun (m : List Char × Raw) => do
      let key ← unescape m.1
      let v ← read? m.2
      return (String.ofList key, v)) = some d := by
    clear hsorted
    induction d with
    | nil => rfl
    | cons e d ih =>
      obtain ⟨key, v⟩ := e
      obtain ⟨hv, hd⟩ := List.forall_mem_cons.mp h
      rw [List.map_cons, ofMembers, List.mapM_cons, ih hd, unescape_escaped, hv]
      simp
  simp only [ofJson, dictOf?, hmembers, Option.map_some, Dict.ofEntries_of_sorted hsorted]

theorem dictOf?_ofTexts {texts : Dict String} (h : Dict.Sorted texts) :
    dictOf? string? (ofJson (.ofTexts texts)) = some texts :=
  dictOf?_map h fun e _ => string?_str e.2

end AdmissionWatch.Json.Raw
