import Mathlib.Data.String.Basic
import AdmissionWatch.Dict

/-!
# Entries of a map

What is looked up is an entry, and an entry of a map into which something was inserted is that or one
from before with another key. A look-up sees what was inserted last at its key, does not see what a
filter drops at other keys, and goes through a change of the values. Entries that are in order are the
map that is made of them, and entries with different keys are all in it.
-/

namespace AdmissionWatch.Dict

variable {α : Type}

theorem mem_of_get? {d : Dict α} {key : String} {value : α} (h : d.get? key = some value) : (key, value) ∈ d := by
  induction d with
  | nil => cases h
  | cons e rest ih =>
    unfold get? at h
    split at h
    · rename_i hkey
      cases h
      exact hkey ▸ List.mem_cons_self
    · exact List.mem_cons_of_mem _ (ih h)

theorem mem_insert {d : Dict α} {key : String} {value : α} {e : String × α} (h : e ∈ d.insert key value) :
    e = (key, value) ∨ e ∈ d := by
  induction d with
  | nil => exact .inl (List.mem_singleton.mp h)
  | cons a rest ih =>
    unfold insert at h
    split at h
    · exact List.mem_cons.mp h
    · split at h
      · rcases List.mem_cons.mp h with h | h
        · exact .inl h
        · exact .inr (List.mem_cons_of_mem _ h)
      · rcases List.mem_cons.mp h with h | h
        · exact .inr (h ▸ List.mem_cons_self)
        · rcases ih h with h | h
          · exact .inl h
          · exact .inr (List.mem_cons_of_mem _ h)

theorem get?_insert (d : Dict α) (key key' : String) (value : α) :
    (d.insert key value).get? key' = if key = key' then some value else d.get? key' := by
  induction d with
  | nil => rfl
  | cons a rest ih =>
    obtain ⟨k, v⟩ := a
    unfold insert
    split
    · rfl
    · split
      · rename_i hkey
        subst hkey
        simp only [get?]
        split <;> rfl
      · rename_i hkey
        simp only [get?, ih]
        split
        · rename_i hk
          rw [if_neg fun h => hkey (h.trans hk.symm)]
        · rfl

/-- An entry that is found is found among those that are kept, if it is kept. -/
theorem get?_filter {d : Dict α} {keep : String × α → Bool} {key : String} {value : α}
    (h : d.get? key = some value) (hkeep : keep (key, value) = true) : get? key (d.filter keep) = some value := by
  induction d with
  | nil => cases h
  | cons a rest ih =>
    obtain ⟨k, v⟩ := a
    unfold get? at h
    split at h
    · rename_i hk
      cases h
      subst hk
      rw [List.filter_cons_of_pos hkeep]
      exact if_pos rfl
    · rename_i hk
      rw [List.filter_cons]
      split
      · exact (if_neg hk).trans (ih h)
      · exact ih h

/-- What is kept or dropped by its key is found as before or not at all. -/
theorem get?_filter_keys (keep : String → Bool) (d : Dict α) (key : String) :
    get? key (d.filter fun e => keep e.1) = if keep key then d.get? key else none := by
  induction d with
  | nil => simp [get?]
  | cons a rest ih =>
    obtain ⟨k, v⟩ := a
    rw [List.filter_cons]
    by_cases hk : k = key
    · subst hk
      cases hkeep : keep k with
      | true => simp [get?]
      | false => simp [ih, hkeep]
    · cases hkeep : keep k <;> simp [get?, hk, ih]

theorem get?_erase (d : Dict α) (key key' : String) :
    get? key' (d.erase key) = if key' = key then none else d.get? key' := by
  rw [erase, get?_filter_keys (fun k => k != key)]
  by_cases h : key' = key <;> simp [h]

theorem get?_map {β : Type} (f : α → β) (d : Dict α) (key : String) :
    get? key (d.map fun e => (e.1, f e.2)) = (d.get? key).map f := by
  induction d with
  | nil => rfl
  | cons a rest ih =>
    obtain ⟨k, v⟩ := a
    rw [List.map_cons]
    unfold get?
    split
    · rfl
    · exact ih

theorem insert_ne_nil (d : Dict α) (key : String) (value : α) : d.insert key value ≠ [] := by
  cases d with
  | nil => exact List.cons_ne_nil _ _
  | cons a rest =>
    unfold insert
    split
    · exact List.cons_ne_nil _ _
    · split
      · exact List.cons_ne_nil _ _
      · exact List.cons_ne_nil _ _

theorem ofEntries_ne_nil {entries : List (String × α)} (h : entries ≠ []) : ofEntries entries ≠ [] := by
  have hfold : ∀ (entries : List (String × α)) (d : Dict α), d ≠ [] →
      entries.foldl (fun d e => insert e.1 e.2 d) d ≠ [] := by
    intro entries
    induction entries with
    | nil => exact fun d hd => hd
    | cons e rest ih => exact fun d _ => ih _ (insert_ne_nil d e.1 e.2)
  cases entries with
  | nil => exact absurd rfl h
  | cons e rest => exact hfold rest _ (insert_ne_nil [] e.1 e.2)

/-- Entries in increasing order of keys, one entry a key. -/
def Sorted (entries : List (String × α)) : Prop :=
  entries.Pairwise fun a b => a.1 < b.1

instance (entries : List (String × α)) : Decidable (Sorted entries) :=
  inferInstanceAs (Decidable (entries.Pairwise fun a b => a.1 < b.1))

theorem Sorted.insert {d : Dict α} (h : Sorted d) (key : String) (value : α) : Sorted (d.insert key value) := by
  induction d with
  | nil => exact List.pairwise_singleton _ _
  | cons a rest ih =>
    obtain ⟨hfirst, hrest⟩ := List.pairwise_cons.mp h
    unfold Dict.insert
    split
    · rename_i hlt
      refine List.pairwise_cons.mpr ⟨fun e he => ?_, h⟩
      rcases List.mem_cons.mp he with rfl | he
      · exact hlt
      · exact hlt.trans (hfirst e he)
    · rename_i hnlt
      split
      · rename_i hkey
        subst hkey
        exact List.pairwise_cons.mpr ⟨hfirst, hrest⟩
      · rename_i hkey
        have hlt : a.1 < key := lt_of_le_of_ne (not_lt.mp hnlt) (Ne.symm hkey)
        refine List.pairwise_cons.mpr ⟨fun e he => ?_, ih hrest⟩
        rcases mem_insert he with rfl | he
        · exact hlt
        · exact hfirst e he

theorem Sorted.mem_insert_iff {d : Dict α} (h : Sorted d) {key : String} {value : α} {e : String × α} :
    e ∈ d.insert key value ↔ e = (key, value) ∨ e.1 ≠ key ∧ e ∈ d := by
  induction d with
  | nil => simp [Dict.insert]
  | cons a rest ih =>
    obtain ⟨hfirst, hrest⟩ := List.pairwise_cons.mp h
    unfold Dict.insert
    split
    · rename_i hlt
      have hne : ∀ e' ∈ a :: rest, e'.1 ≠ key := by
        intro e' he'
        rcases List.mem_cons.mp he' with rfl | he'
        · exact ne_of_gt hlt
        · exact ne_of_gt (hlt.trans (hfirst e' he'))
      rw [List.mem_cons]
      exact or_congr_right ⟨fun he => ⟨hne e he, he⟩, And.right⟩
    · split
      · rename_i hkey
        subst hkey
        have hne : ∀ e' ∈ rest, e'.1 ≠ a.1 := fun e' he' => ne_of_gt (hfirst e' he')
        rw [List.mem_cons, List.mem_cons]
        refine or_congr_right ⟨fun he => ⟨hne e he, .inr he⟩, ?_⟩
        rintro ⟨hkey, rfl | he⟩
        · exact absurd rfl hkey
        · exact he
      · rename_i hkey
        rw [List.mem_cons, List.mem_cons, ih hrest]
        constructor
        · rintro (rfl | rfl | ⟨hne, he⟩)
          · exact .inr ⟨Ne.symm hkey, .inl rfl⟩
          · exact .inl rfl
          · exact .inr ⟨hne, .inr he⟩
        · rintro (rfl | ⟨hne, rfl | he⟩)
          · exact .inr (.inl rfl)
          · exact .inl rfl
          · exact .inr (.inr ⟨hne, he⟩)

/-- In order there is one entry a key, so that what is not kept is not found elsewhere. -/
theorem Sorted.get?_filter {d : Dict α} (h : Sorted d) (keep : String × α → Bool) (key : String) :
    get? key (d.filter keep) = (d.get? key).filter fun value => keep (key, value) := by
  induction d with
  | nil => rfl
  | cons a rest ih =>
    obtain ⟨hfirst, hrest⟩ := List.pairwise_cons.mp h
    obtain ⟨k, v⟩ := a
    rw [List.filter_cons]
    by_cases hk : k = key
    · subst hk
      have hnone : get? k rest = none := by
        cases hfound : get? k rest with
        | none => rfl
        | some value => exact absurd (hfirst _ (mem_of_get? hfound)) (lt_irrefl k)
      cases hkeep : keep (k, v) with
      | true => simp [get?, Option.filter_some, hkeep]
      | false => simp [get?, Option.filter_some, hkeep, ih hrest, hnone]
    · cases hkeep : keep (k, v) <;> simp [get?, hk, ih hrest]

theorem insert_of_last {d : Dict α} {key : String} {value : α} (h : ∀ e ∈ d, e.1 < key) :
    d.insert key value = d ++ [(key, value)] := by
  induction d with
  | nil => rfl
  | cons e rest ih =>
    obtain ⟨hfirst, hrest⟩ := List.forall_mem_cons.mp h
    rw [insert, if_neg (lt_asymm hfirst), if_neg (ne_of_gt hfirst), ih hrest]
    rfl

/-- What is in order is not changed by being made a map. -/
theorem ofEntries_of_sorted {entries : List (String × α)} (h : Sorted entries) : ofEntries entries = entries := by
  have hall : ∀ d : Dict α, (∀ e ∈ d, ∀ e' ∈ entries, e.1 < e'.1) →
      entries.foldl (fun d e => insert e.1 e.2 d) d = d ++ entries := by
    induction entries with
    | nil => simp
    | cons e rest ih =>
      intro d hd
      obtain ⟨hfirst, hrest⟩ := List.pairwise_cons.mp h
      rw [List.foldl_cons, insert_of_last fun e' he' => hd e' he' e List.mem_cons_self, ih hrest]
      · simp
      · intro a ha b hb
        rcases List.mem_append.mp ha with ha | ha
        · exact hd a ha b (List.mem_cons_of_mem _ hb)
        · obtain rfl := List.mem_singleton.mp ha
          exact hfirst b hb
  exact hall [] (List.forall_mem_nil _)

theorem insert_perm {d : Dict α} {key : String} (hnew : ∀ e ∈ d, e.1 ≠ key) (value : α) :
    (d.insert key value).Perm ((key, value) :: d) := by
  induction d with
  | nil => exact .refl _
  | cons a rest ih =>
    obtain ⟨hfirst, hrest⟩ := List.forall_mem_cons.mp hnew
    unfold insert
    split
    · exact .refl _
    · rw [if_neg (Ne.symm hfirst)]
      exact ((ih hrest).cons a).trans (.swap (key, value) a rest)

/-- Entries with different keys are all in the map that is made of them. -/
theorem perm_ofEntries {entries : List (String × α)} (h : (entries.map Prod.fst).Nodup) :
    (ofEntries entries).Perm entries := by
  have hall : ∀ d : Dict α, (∀ e ∈ d, e.1 ∉ entries.map Prod.fst) →
      (entries.foldl (fun d e => insert e.1 e.2 d) d).Perm (d ++ entries) := by
    induction entries with
    | nil => simp
    | cons e rest ih =>
      intro d hd
      obtain ⟨hfirst, hrest⟩ := List.nodup_cons.mp h
      have hnew : ∀ a ∈ d, a.1 ≠ e.1 := fun a ha heq => hd a ha (heq ▸ List.mem_cons_self)
      have hinsert := insert_perm hnew e.2
      refine (ih hrest (insert e.1 e.2 d) fun a ha => ?_).trans ?_
      · rcases List.mem_cons.mp (hinsert.mem_iff.mp ha) with rfl | ha
        · exact hfirst
        · exact fun hmem => hd a ha (List.mem_cons_of_mem _ hmem)
      · exact (hinsert.append_right rest).trans List.perm_middle.symm
  exact hall [] (List.forall_mem_nil _)

theorem sorted_ofEntries (entries : List (String × α)) : Sorted (ofEntries entries) := by
  have hall : ∀ d : Dict α, Sorted d → Sorted (entries.foldl (fun d e => insert e.1 e.2 d) d) := by
    induction entries with
    | nil => exact fun d hd => hd
    | cons e rest ih => exact fun d hd => ih _ (hd.insert e.1 e.2)
  exact hall [] .nil

/-- A map is told by its entries, in whatever order they are given. -/
theorem eq_ofEntries_iff {entries : List (String × α)} (h : (entries.map Prod.fst).Nodup) {d : Dict α} :
    d = ofEntries entries ↔ Sorted d ∧ d.Perm entries := by
  constructor
  · rintro rfl
    exact ⟨sorted_ofEntries entries, perm_ofEntries h⟩
  · rintro ⟨hsorted, hperm⟩
    have hlt : ∀ a b : String × α, a ∈ d → b ∈ ofEntries entries → a.1 < b.1 → b.1 < a.1 → a = b :=
      fun a b _ _ hab hba => absurd hab (lt_asymm hba)
    exact (hperm.trans (perm_ofEntries h).symm).eq_of_pairwise hlt hsorted (sorted_ofEntries entries)

end AdmissionWatch.Dict
