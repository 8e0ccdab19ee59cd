import Mathlib.Data.List.Infix
import AdmissionWatch.Detection
import AdmissionWatch.Proofs.Detection.MarkerSet

/-!
# Denials told by their texts

The kind of a denial is the first in the order of kinds that fits the message (`denialKind?_scan`). A
kind that fits by what the message says goes on fitting when more is said. Validating policies also
need two texts to be absent, but each of these is the text of a kind of its own, which fits as soon as
it is there (`Fits.widen`). So a message that reports a denial reports one in whatever text it stands.
-/

namespace AdmissionWatch.Detection

/-- Whether the text of a marker stands anywhere in a message. -/
def Occurs (message : String) (m : Marker) : Prop :=
  m.text.toList <:+: message.toList

instance (message : String) : DecidablePred (Occurs message) :=
  fun m => inferInstanceAs (Decidable (m.text.toList <:+: message.toList))

/-- Whether a message says what denials of a kind say; those in audit mode are no denials. -/
def Fits (message : String) : Category → Prop
  | .kyverno => Occurs message .kyverno ∧ Occurs message .blockedDueToPolicies
  | .validatingPolicy =>
    Occurs message .validatingPolicy ∧ Occurs message .kyverno ∧
      ¬Occurs message .imageValidatingPolicy ∧ ¬Occurs message .namespacedValidatingPolicy
  | .namespacedValidatingPolicy => Occurs message .namespacedValidatingPolicy ∧ Occurs message .kyverno
  | .imageValidatingPolicy => Occurs message .imageValidatingPolicy ∧ Occurs message .kyverno
  | .validatingAdmissionPolicy => Occurs message .validatingAdmissionPolicy
  | .auditOnlyValidatingAdmissionPolicy | .auditOnlyClusterPolicy => False

instance (message : String) : DecidablePred (Fits message)
  | .kyverno => inferInstanceAs (Decidable (_ ∧ _))
  | .validatingPolicy => inferInstanceAs (Decidable (_ ∧ _ ∧ _ ∧ _))
  | .namespacedValidatingPolicy => inferInstanceAs (Decidable (_ ∧ _))
  | .imageValidatingPolicy => inferInstanceAs (Decidable (_ ∧ _))
  | .validatingAdmissionPolicy => inferInstanceAs (Decidable (Occurs message .validatingAdmissionPolicy))
  | .auditOnlyValidatingAdmissionPolicy | .auditOnlyClusterPolicy => inferInstanceAs (Decidable False)

variable {message wider : String}

theorem contains_scan (message : String) (m : Marker) :
    (Marker.scan message).contains m = decide (Occurs message m) := by
  rw [Bool.eq_iff_iff, List.contains_iff_mem, Marker.mem_scan_iff, decide_eq_true_iff]
  rfl

theorem find?_fits_cons (c : Category) (rest : List Category) :
    (c :: rest).find? (fun c => decide (Fits message c)) =
      if Fits message c then some c else rest.find? fun c => decide (Fits message c) := by
  by_cases h : Fits message c <;> simp [h]

theorem denialKind?_scan (message : String) :
    denialKind? (Marker.scan message) = Category.all.find? fun c => decide (Fits message c) := by
  simp only [Category.all, find?_fits_cons, List.find?_nil]
  simp only [Fits, denialKind?, hasAll, List.all_cons, List.all_nil, contains_scan, Bool.and_true, Bool.and_eq_true,
    Bool.not_eq_true', decide_eq_true_iff, decide_eq_false_iff_not, and_assoc]
  rfl

theorem Occurs.widen {m : Marker} (hin : message.toList <:+: wider.toList) (h : Occurs message m) : Occurs wider m :=
  List.IsInfix.trans h hin

theorem Fits.widen {c : Category} (hin : message.toList <:+: wider.toList) (h : Fits message c) :
    ∃ c', Fits wider c' := by
  cases c with
  | kyverno => exact ⟨.kyverno, h.1.widen hin, h.2.widen hin⟩
  | validatingPolicy =>
    obtain ⟨hvpol, hkyverno, -, -⟩ := h
    -- What may no longer be absent makes the message one of the two later kinds.
    by_cases hnvpol : Occurs wider .namespacedValidatingPolicy
    · exact ⟨.namespacedValidatingPolicy, hnvpol, hkyverno.widen hin⟩
    by_cases hivpol : Occurs wider .imageValidatingPolicy
    · exact ⟨.imageValidatingPolicy, hivpol, hkyverno.widen hin⟩
    · exact ⟨.validatingPolicy, hvpol.widen hin, hkyverno.widen hin, hivpol, hnvpol⟩
  | namespacedValidatingPolicy => exact ⟨.namespacedValidatingPolicy, h.1.widen hin, h.2.widen hin⟩
  | imageValidatingPolicy => exact ⟨.imageValidatingPolicy, h.1.widen hin, h.2.widen hin⟩
  | validatingAdmissionPolicy => exact ⟨.validatingAdmissionPolicy, Occurs.widen hin h⟩
  | auditOnlyValidatingAdmissionPolicy => exact h.elim
  | auditOnlyClusterPolicy => exact h.elim

theorem isSome_denial?_iff {code : Int} : (denial? code message).isSome ↔ 400 ≤ code ∧ ∃ c, Fits message c := by
  have hall : ∀ c, c ∈ Category.all := fun c => by cases c <;> decide
  rw [denial?, denialCode]
  split
  · rename_i hlow
    simp [Int.not_le.mpr hlow]
  · rename_i hhigh
    rw [denialKind?_scan, List.find?_isSome]
    simp [hall, Int.not_lt.mp hhigh]

/-- Whichever exact engine searches, the scan that detection is based on finds the markers whose texts
are part of the message, and a denial is of the first kind that fits. A message that reports a denial
reports one within any other, though perhaps of another kind, and for higher codes too. -/
theorem denial_told_by_texts {engine : Engine} (hexact : engine.IsExact) :
    (∀ message, ∃ set, MarkerSet.scan? engine message = some set ∧ set.markers = Marker.scan message ∧
      ∀ m : Marker, set.has m = true ↔ m.text.toList <:+: message.toList) ∧
    (∀ code message, denial? code message =
      if code < 400 then none else Category.all.find? fun c => decide (Fits message c)) ∧
    ∀ (code code' : Int) (before message after : String), (denial? code message).isSome → code ≤ code' →
      (denial? code' (before ++ message ++ after)).isSome := by
  refine ⟨MarkerSet.scan?_exact hexact, fun code message => ?_,
    fun code code' before message after hsome hcode => ?_⟩
  · rw [denial?, denialKind?_scan]
    rfl
  · obtain ⟨hhigh, c, hfits⟩ := isSome_denial?_iff.mp hsome
    refine isSome_denial?_iff.mpr ⟨Int.le_trans hhigh hcode, hfits.widen ?_⟩
    exact ⟨before.toList, after.toList, by simp⟩

/-- A letter before the name of a webhook makes its kind another. -/
theorem denial_told_by_texts_after_letter :
    let message := "vpol.validate.kyverno.svc-fail"
    Engine.plain.IsExact ∧ denial? 400 message = some .validatingPolicy ∧
      (denial? 422 ("n" ++ message ++ "")).isSome ∧
      denial? 422 ("n" ++ message ++ "") = some .namespacedValidatingPolicy := by
  have hkind : denial? 400 "vpol.validate.kyverno.svc-fail" = some .validatingPolicy := by decide +kernel
  refine ⟨Engine.isExact_plain, hkind, ?_, by decide +kernel⟩
  exact (denial_told_by_texts Engine.isExact_plain).2.2 400 422 _ _ _ (by rw [hkind]; rfl) (by decide)

end AdmissionWatch.Detection
