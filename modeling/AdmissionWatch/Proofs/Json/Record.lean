import Mathlib.Data.List.Forall2
import Mathlib.Data.List.GetD
import AdmissionWatch.Json.Record

/-!
# What is found in an object

Reading a record from an object finds, for each field, the one member that goes by one of its names
(`record?_obj_iff`). So what is found depends on nothing else: not on the order of the members, nor on
members that are no field, as long as their keys denote characters (`Rearranged.record?_eq`).
-/

namespace AdmissionWatch.Json.Raw

variable {names : List (List String)} {ms ms' : List (List Char × Raw)} {m : List Char × Raw} {found found' : Found}

/-- The place of the field that a member is, if its key has a meaning and is the name of one. -/
def fieldOf? (names : List (List String)) (m : List Char × Raw) : Option Nat :=
  (unescape m.1).bind fun key => placeOf? names (String.ofList key)

/-- The values of the members that are the field at a place. -/
def valuesAt (names : List (List String)) (i : Nat) (ms : List (List Char × Raw)) : List Raw :=
  (ms.filter fun m => fieldOf? names m == some i).map Prod.snd

/-- Whether the keys of all members denote characters. -/
def KeysRead (ms : List (List Char × Raw)) : Prop :=
  ∀ m ∈ ms, (unescape m.1).isSome = true

theorem lt_length_of_fieldOf? {i : Nat} (h : fieldOf? names m = some i) : i < names.length := by
  obtain ⟨key, -, hplace⟩ := Option.bind_eq_some_iff.mp h
  exact (List.findIdx?_eq_some_iff_findIdx_eq.mp hplace).1

theorem valuesAt_cons (i : Nat) : valuesAt names i (m :: ms) =
    if fieldOf? names m = some i then m.2 :: valuesAt names i ms else valuesAt names i ms := by
  unfold valuesAt
  rw [List.filter_cons]
  by_cases h : fieldOf? names m = some i <;> simp [h]

theorem addMember_eq_some_iff : addMember names found m = some found' ↔ (unescape m.1).isSome = true ∧
    ((fieldOf? names m = none ∧ found = found') ∨
      ∃ i, fieldOf? names m = some i ∧ found.getD i none = none ∧ found.set i (some m.2) = found') := by
  unfold addMember fieldOf?
  cases hkey : unescape m.1 with
  | none => simp
  | some key =>
    cases hplace : placeOf? names (String.ofList key) with
    | none => simp [hplace]
    | some i => cases hfound : found.getD i none <;> simp_all

theorem getD_set {i : Nat} (h : i < found.length) (j : Nat) (raw : Raw) :
    (found.set i (some raw)).getD j none = if i = j then some raw else found.getD j none := by
  rw [List.getD_eq_getElem?_getD, List.getElem?_set, List.getD_eq_getElem?_getD]
  by_cases hij : i = j
  · subst hij
    simp [h]
  · simp [hij]

theorem ext_toList (hlength : found.length = found'.length)
    (h : ∀ i < found.length, (found.getD i none).toList = (found'.getD i none).toList) : found = found' := by
  refine List.ext_getElem hlength fun i hi hi' => ?_
  have hsame := h i hi
  rw [List.getD_eq_getElem _ _ hi, List.getD_eq_getElem _ _ hi'] at hsame
  have hhead := congrArg List.head? hsame
  rwa [Option.head?_toList, Option.head?_toList] at hhead

theorem length_addMember {next : Found} (h : addMember names found m = some next) : next.length = found.length := by
  obtain ⟨-, (⟨-, rfl⟩ | ⟨i, -, -, rfl⟩)⟩ := addMember_eq_some_iff.mp h
  · rfl
  · exact List.length_set ..

/-- A member that is added moves from the values that are still to come to those that are found. -/
theorem toList_addMember {next : Found} (hlength : found.length = names.length)
    (h : addMember names found m = some next) (j : Nat) :
    (next.getD j none).toList ++ valuesAt names j ms = (found.getD j none).toList ++ valuesAt names j (m :: ms) := by
  rw [valuesAt_cons]
  obtain ⟨-, (⟨hnone, rfl⟩ | ⟨i, hsome, hfree, rfl⟩)⟩ := addMember_eq_some_iff.mp h
  · rw [hnone]
    rfl
  · rw [hsome, getD_set (hlength ▸ lt_length_of_fieldOf? hsome)]
    by_cases hij : i = j
    · subst hij
      rw [if_pos rfl, if_pos rfl, hfree]
      rfl
    · rw [if_neg hij, if_neg fun h => hij (Option.some.inj h)]

/-- Members are added one after the other exactly when no field is found twice. -/
theorem foldlM_addMember_iff (hlength : found.length = names.length) :
    ms.foldlM (addMember names) found = some found' ↔
    KeysRead ms ∧ found'.length = names.length ∧
      ∀ i < names.length, (found'.getD i none).toList = (found.getD i none).toList ++ valuesAt names i ms := by
  induction ms generalizing found with
  | nil =>
    constructor
    · intro h
      cases h
      exact ⟨List.forall_mem_nil _, hlength, fun i _ => (List.append_nil _).symm⟩
    · rintro ⟨-, hlength', hfound⟩
      refine congrArg some (ext_toList (hlength.trans hlength'.symm) fun i hi => ?_)
      exact ((hfound i (hlength ▸ hi)).trans (List.append_nil _)).symm
  | cons m ms ih =>
    rw [List.foldlM_cons, Option.bind_eq_bind, Option.bind_eq_some_iff]
    constructor
    · rintro ⟨next, hnext, hrest⟩
      obtain ⟨hkeys, hlength', hfound⟩ := (ih ((length_addMember hnext).trans hlength)).mp hrest
      have hkey := (addMember_eq_some_iff.mp hnext).1
      refine ⟨List.forall_mem_cons.mpr ⟨hkey, hkeys⟩, hlength', fun j hj => ?_⟩
      rw [hfound j hj, toList_addMember hlength hnext]
    · rintro ⟨hkeys, hlength', hfound⟩
      obtain ⟨hkey, hkeys⟩ := List.forall_mem_cons.mp hkeys
      obtain ⟨next, hnext⟩ : ∃ next, addMember names found m = some next := by
        cases hfield : fieldOf? names m with
        | none => exact ⟨found, addMember_eq_some_iff.mpr ⟨hkey, .inl ⟨hfield, rfl⟩⟩⟩
        | some i =>
          -- The field is still free, or two values would be found at its place.
          have hfree : found.getD i none = none := by
            have hone := congrArg List.length (hfound i (lt_length_of_fieldOf? hfield))
            rw [valuesAt_cons, if_pos hfield, List.length_append, List.length_cons] at hone
            have hmost : (found'.getD i none).toList.length ≤ 1 := Option.length_toList_le
            cases hfound' : found.getD i none with
            | none => rfl
            | some raw =>
              rw [hfound', Option.toList_some, List.length_singleton] at hone
              omega
          exact ⟨_, addMember_eq_some_iff.mpr ⟨hkey, .inr ⟨i, hfield, hfree, rfl⟩⟩⟩
      refine ⟨next, hnext, (ih ((length_addMember hnext).trans hlength)).mpr ⟨hkeys, hlength', fun j hj => ?_⟩⟩
      rw [hfound j hj, toList_addMember hlength hnext]

/-- Before the first member nothing is found. -/
theorem getD_nothing (i : Nat) : (names.map fun _ => (none : Option Raw)).getD i none = none := by
  rw [List.getD_eq_getElem?_getD, List.getElem?_map]
  cases names[i]? <;> rfl

theorem record?_obj_iff : record? names (obj ms) = some found ↔ KeysRead ms ∧ found.length = names.length ∧
    ∀ i < names.length, (found.getD i none).toList = valuesAt names i ms := by
  unfold record?
  rw [foldlM_addMember_iff (List.length_map _)]
  refine and_congr_right fun _ => and_congr_right fun _ => forall₂_congr fun i _ => ?_
  rw [getD_nothing]
  exact Iff.rfl

theorem keysRead_of_bind {α : Type} {next : Found → Option α} {x : α}
    (h : (record? names (obj ms)).bind next = some x) : KeysRead ms := by
  obtain ⟨found, hfound, -⟩ := Option.bind_eq_some_iff.mp h
  exact (record?_obj_iff.mp hfound).1

/-- A member that is a field is what is found at its place. -/
theorem getD_of_mem (hfound : record? names (obj ms) = some found) (hm : m ∈ ms) {i : Nat}
    (hi : fieldOf? names m = some i) : found.getD i none = some m.2 := by
  have hvalues := (record?_obj_iff.mp hfound).2.2 i (lt_length_of_fieldOf? hi)
  have hvalue : m.2 ∈ valuesAt names i ms := List.mem_map_of_mem (List.mem_filter.mpr ⟨hm, by simp [hi]⟩)
  rw [← hvalues] at hvalue
  exact Option.mem_toList.mp hvalue

/-! ## Members in another order, and others among them -/

/-- A member that is no field: what its key denotes, if it denotes characters, is none of the names. -/
def IsExtra (names : List (List String)) (m : List Char × Raw) : Prop :=
  ∀ key, unescape m.1 = some key → ∀ ns ∈ names, String.ofList key ∉ ns

/-- The same members in any order, and others among them that are no field. -/
def Rearranged (names : List (List String)) (ms ms' : List (List Char × Raw)) : Prop :=
  ∃ extra, ms'.Perm (ms ++ extra) ∧ ∀ m ∈ extra, IsExtra names m

theorem IsExtra.fieldOf? (h : IsExtra names m) : fieldOf? names m = none := by
  refine Option.bind_eq_none_iff.mpr fun key hkey => ?_
  rw [placeOf?, List.findIdx?_eq_none_iff]
  intro ns hns
  simpa using h key hkey ns hns

theorem valuesAt_append (i : Nat) (extra : List (List Char × Raw)) :
    valuesAt names i (ms ++ extra) = valuesAt names i ms ++ valuesAt names i extra := by
  simp [valuesAt]

theorem valuesAt_of_isExtra {i : Nat} (h : ∀ m ∈ ms, IsExtra names m) : valuesAt names i ms = [] := by
  unfold valuesAt
  rw [List.map_eq_nil_iff, List.filter_eq_nil_iff]
  intro m hm
  simp [(h m hm).fieldOf?]

theorem Rearranged.valuesAt (h : Rearranged names ms ms') (i : Nat) :
    (Raw.valuesAt names i ms').Perm (Raw.valuesAt names i ms) := by
  obtain ⟨extra, hperm, hextra⟩ := h
  have := (hperm.filter fun m => Raw.fieldOf? names m == some i).map Prod.snd
  refine this.trans (.of_eq ?_)
  exact (valuesAt_append i extra).trans (by rw [valuesAt_of_isExtra hextra, List.append_nil])

theorem Rearranged.keysRead (h : Rearranged names ms ms') (hkeys : KeysRead ms') : KeysRead ms := by
  obtain ⟨extra, hperm, -⟩ := h
  exact fun m hm => hkeys m (hperm.mem_iff.mpr (List.mem_append_left _ hm))

theorem toList_eq_of_perm {o : Option Raw} {l l' : List Raw} (h : l.Perm l') (ho : o.toList = l) : o.toList = l' := by
  subst ho
  cases o with
  | none => exact (List.nil_perm.mp h).symm
  | some raw => exact (List.singleton_perm.mp h)

/-- What is found depends neither on the order of the members nor on those that are no field. -/
theorem Rearranged.record?_eq (h : Rearranged names ms ms') (hkeys : KeysRead ms') :
    record? names (obj ms') = record? names (obj ms) := by
  refine Option.ext fun found => ?_
  rw [record?_obj_iff, record?_obj_iff, iff_true_intro hkeys, iff_true_intro (h.keysRead hkeys)]
  refine and_congr_right fun _ => and_congr_right fun _ => forall₂_congr fun i _ => ?_
  exact ⟨toList_eq_of_perm (h.valuesAt i), toList_eq_of_perm (h.valuesAt i).symm⟩

/-! ## Members with other values -/

/-- A member under the same key whose value, if it is a field, compares to the first by the relation
for that field. -/
def Recast (R : Nat → Raw → Raw → Prop) (names : List (List String)) (m m' : List Char × Raw) : Prop :=
  m'.1 = m.1 ∧ ∀ i, fieldOf? names m = some i → R i m.2 m'.2

/-- What is found compares field by field. -/
structure Alike (R : Nat → Raw → Raw → Prop) (names : List (List String)) (found found' : Found) : Prop where
  length : found.length = names.length
  length' : found'.length = names.length
  fields : ∀ i, Option.Rel (R i) (found.getD i none) (found'.getD i none)

variable {R : Nat → Raw → Raw → Prop} {m' : List Char × Raw}

theorem Recast.fieldOf? (h : Recast R names m m') : fieldOf? names m' = fieldOf? names m := by
  unfold Raw.fieldOf?
  rw [h.1]

theorem Alike.addMember {next : Found} (h : Alike R names found found') (hm : Recast R names m m')
    (hnext : addMember names found m = some next) :
    ∃ next', Raw.addMember names found' m' = some next' ∧ Alike R names next next' := by
  obtain ⟨hkey, (⟨hnone, rfl⟩ | ⟨i, hsome, hfree, rfl⟩)⟩ := addMember_eq_some_iff.mp hnext
  · exact ⟨found', addMember_eq_some_iff.mpr ⟨hm.1 ▸ hkey, .inl ⟨hm.fieldOf?.trans hnone, rfl⟩⟩, h⟩
  · have hi := lt_length_of_fieldOf? hsome
    have hfree' : found'.getD i none = none := by
      have hrel := h.fields i
      rw [hfree] at hrel
      cases hfound : found'.getD i none with
      | none => rfl
      | some raw =>
        rw [hfound] at hrel
        cases hrel
    refine ⟨_, addMember_eq_some_iff.mpr ⟨hm.1 ▸ hkey, .inr ⟨i, hm.fieldOf?.trans hsome, hfree', rfl⟩⟩,
      (List.length_set ..).trans h.length, (List.length_set ..).trans h.length', fun j => ?_⟩
    rw [getD_set (h.length ▸ hi), getD_set (h.length' ▸ hi)]
    by_cases hij : i = j
    · subst hij
      rw [if_pos rfl, if_pos rfl]
      exact .some (hm.2 i hsome)
    · rw [if_neg hij, if_neg hij]
      exact h.fields j

theorem Alike.foldlM {last : Found} (h : Alike R names found found') (hms : List.Forall₂ (Recast R names) ms ms')
    (hlast : ms.foldlM (Raw.addMember names) found = some last) :
    ∃ last', ms'.foldlM (Raw.addMember names) found' = some last' ∧ Alike R names last last' := by
  induction hms generalizing found found' with
  | nil =>
    cases hlast
    exact ⟨found', rfl, h⟩
  | cons hm _ ih =>
    rw [List.foldlM_cons, Option.bind_eq_bind, Option.bind_eq_some_iff] at hlast
    obtain ⟨next, hnext, hrest⟩ := hlast
    obtain ⟨next', hnext', halike⟩ := h.addMember hm hnext
    obtain ⟨last', hrest', hlike⟩ := ih halike hrest
    refine ⟨last', ?_, hlike⟩
    rw [List.foldlM_cons, hnext']
    exact hrest'

theorem record?_recast (hms : List.Forall₂ (Recast R names) ms ms') (hfound : record? names (obj ms) = some found) :
    ∃ found', record? names (obj ms') = some found' ∧ Alike R names found found' := by
  refine Alike.foldlM ⟨List.length_map _, List.length_map _, fun i => ?_⟩ hms hfound
  rw [getD_nothing]
  exact .none

/-- A field is read alike from what compares by a relation that its reading respects. -/
theorem Alike.fieldOr {α : Type} {read? : Raw → Option α} {i : Nat} (h : Alike R names found found')
    (hread : ∀ raw raw', R i raw raw' → read? raw' = read? raw) (absent : α) :
    fieldOr found' i absent read? = fieldOr found i absent read? := by
  unfold Raw.fieldOr
  have hrel := h.fields i
  generalize found.getD i none = o at hrel ⊢
  generalize found'.getD i none = o' at hrel ⊢
  cases hrel with
  | none => rfl
  | some hraw => exact hread _ _ hraw

/-! ## Arrays -/

theorem listOf?_eq_some_iff {α : Type} {read? : Raw → Option α} {raw : Raw} {xs : List α} :
    listOf? read? raw = some xs ↔ ∃ items, raw = arr items ∧
      List.Forall₂ (fun item x => read? item = some x) items xs := by
  have hall : ∀ (items : List Raw) (xs : List α),
      items.mapM read? = some xs ↔ List.Forall₂ (fun item x => read? item = some x) items xs := by
    intro items
    induction items with
    | nil => intro xs; cases xs <;> simp
    | cons item items ih =>
      intro xs
      rw [List.mapM_cons, Option.bind_eq_bind, Option.bind_eq_some_iff]
      constructor
      · rintro ⟨x, hx, hrest⟩
        obtain ⟨rest, hitems, heq⟩ := Option.bind_eq_some_iff.mp hrest
        cases heq
        exact .cons hx ((ih rest).mp hitems)
      · rintro (_ | ⟨hx, hrest⟩)
        exact ⟨_, hx, Option.bind_eq_some_iff.mpr ⟨_, (ih _).mpr hrest, rfl⟩⟩
  cases raw with
  | arr items => simp [listOf?, hall]
  | _ => simp [listOf?]

end AdmissionWatch.Json.Raw
