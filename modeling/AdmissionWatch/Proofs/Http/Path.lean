import AdmissionWatch.Http.Url
import AdmissionWatch.Proofs.Text.Pieces

/-!
# A path and the slash after it

A path is resolved part by part. A slash after a path adds an empty part, which leaves the root where it
is exactly when the path names the root and does not end in a slash already (`resolveParts_slash_iff`).
-/

namespace AdmissionWatch.Http

variable {c : Char} {s : List Char} {done parts : List (List Char)}

/-! ### Parts of a path -/

/-- Whether a part of a path is neither itself nor the part above. -/
def IsOrdinary (part : List Char) : Prop :=
  isDot part = false ∧ isDotDot part = false

theorem isOrdinary_nil : IsOrdinary [] := by
  constructor <;> decide

/-- The ways to write the part itself and the part above, in lower case. -/
def dotForms : List String := [".", "%2e", "..", ".%2e", "%2e.", "%2e%2e"]

theorem isOrdinary_append {last : List Char} (h : ∀ form ∈ dotForms, ¬last.map Char.toLower <:+ form.toList)
    (part : List Char) : IsOrdinary (part ++ last) := by
  have hno : String.ofList ((part ++ last).map Char.toLower) ∉ dotForms := by
    intro hin
    refine h _ hin ?_
    rw [String.toList_ofList, List.map_append]
    exact List.suffix_append _ _
  have hforms : ∀ forms ⊆ dotForms, forms.contains (String.ofList ((part ++ last).map Char.toLower)) = false := by
    intro forms hforms
    rw [List.contains_eq_mem]
    exact decide_eq_false fun hin => hno (hforms hin)
  exact ⟨hforms _ (by decide), hforms _ (by decide)⟩

theorem resolveParts_cons {part : List Char} (hparts : parts ≠ []) : resolveParts done (part :: parts) =
    if isDotDot part then resolveParts (done.drop 1) parts
    else if isDot part then resolveParts done parts
    else resolveParts (part :: done) parts := by
  obtain ⟨next, parts, rfl⟩ := List.exists_cons_of_ne_nil hparts
  rfl

theorem resolveParts_singleton {last : List Char} (hlast : IsOrdinary last) :
    resolveParts done [last] = done.reverse ++ [last] := by
  simp [resolveParts, hlast.1, hlast.2]

/-- Parts lead back to the root only if the last one leads there. -/
theorem resolveParts_ordinary {last : List Char} (hlast : IsOrdinary last) (hne : last ≠ []) :
    resolveParts done (parts ++ [last]) ≠ [[]] := by
  induction parts generalizing done with
  | nil =>
    rw [List.nil_append, resolveParts_singleton hlast]
    simp [List.append_eq_singleton_iff, hne]
  | cons part parts ih =>
    rw [List.cons_append, resolveParts_cons (by simp)]
    split
    · exact ih
    split <;> exact ih

theorem resolveParts_slash_iff (hparts : parts ≠ []) :
    resolveParts done (parts ++ [[]]) = [[]] ↔ resolveParts done parts = [[]] ∧ parts.getLast? ≠ some [] := by
  induction parts generalizing done with
  | nil => exact absurd rfl hparts
  | cons part parts ih =>
    cases parts with
    | nil =>
      rw [List.cons_append, List.nil_append, resolveParts_cons (by simp)]
      by_cases hordinary : IsOrdinary part
      · rw [resolveParts_singleton hordinary]
        simp [hordinary.1, hordinary.2, resolveParts_singleton isOrdinary_nil, List.append_eq_singleton_iff]
      · have hne : part ≠ [] := by
          rintro rfl
          exact hordinary isOrdinary_nil
        by_cases hup : isDotDot part
        · simp [hup, resolveParts, isOrdinary_nil.1, isOrdinary_nil.2, hne]
        · have hhere : isDot part = true := by simpa [IsOrdinary, hup] using hordinary
          simp [hup, hhere, resolveParts, isOrdinary_nil.1, isOrdinary_nil.2, hne]
    | cons next parts =>
      rw [List.cons_append, resolveParts_cons (by simp), resolveParts_cons (by simp), List.getLast?_cons_cons]
      split
      · exact ih (by simp)
      split <;> exact ih (by simp)

theorem intercalate_eq_root_iff : List.intercalate ['/'] ([] :: parts) = ['/'] ↔ parts = [[]] := by
  match parts with
  | [] => simp
  | [part] => simp [List.intercalate]
  | part :: next :: parts => simp [List.intercalate]

theorem readPath_eq_root_iff : readPath s = "/" ↔
    resolveParts [] ((Text.pieces '/' (s.drop 1)).map (percentEncoded notInPath)) = [[]] := by
  rw [← intercalate_eq_root_iff, readPath, ← String.toList_inj, String.toList_ofList]
  rfl

end AdmissionWatch.Http
