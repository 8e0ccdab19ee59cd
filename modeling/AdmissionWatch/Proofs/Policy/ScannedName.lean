import AdmissionWatch.Proofs.Policy.AuditFailures
import AdmissionWatch.Proofs.Policy.SinglePolicy

/-!
# Names found by a scan

An annotation that is no array of failure records is searched for the first `"policy":`. What stands
from there to the next comma is the name, without quotes. So a quoted name is found with whatever follows
its closing quote up to a comma, and it is found alone exactly when only quotes and blanks follow
(`scan_finds_name_iff`).
-/

namespace AdmissionWatch.Policy

open Text Json.Raw

variable {text name : String}

/-- Whether an annotation is a JSON text of an array of failure records. -/
def ReadsAsFailures (text : String) : Prop :=
  ∃ items names, TextOf (.arr items) text.toList ∧
    List.Forall₂ (fun item name => failureName? item = some name) items names

theorem readNames_eq_none_iff : readNames text = none ↔ ¬ReadsAsFailures text := by
  rw [Option.eq_none_iff_forall_ne_some]
  simp only [ne_eq, readNames_eq_some_iff, ReadsAsFailures, not_exists]
  exact forall_comm

instance : DecidablePred ReadsAsFailures :=
  fun _ => decidable_of_iff _ (not_congr readNames_eq_none_iff |>.trans not_not)

theorem auditFailures_of_scan (h : ¬ReadsAsFailures text) :
    auditFailures text = [(scannedName text, [(scannedName text, text)])] := by
  rw [auditFailures_eq, reportedNames, readNames_eq_none_iff.mpr h]
  rfl

/-- What the search takes for a name, with the blanks around it. -/
def piece (rest : List Char) : List Char :=
  (rest.takeWhile (· != ',')).filter (· != '"')

theorem piece_quote (rest : List Char) : piece ('"' :: rest) = piece rest := by
  simp [piece]

theorem piece_append {s : List Char} (hquote : '"' ∉ s) (hcomma : ',' ∉ s) (rest : List Char) :
    piece (s ++ rest) = s ++ piece rest := by
  have hinside : ∀ c ∈ s, (c != ',') = true := fun c hc => bne_iff_ne.mpr (ne_of_mem_of_not_mem hc hcomma)
  have hkept : s.filter (· != '"') = s :=
    List.filter_eq_self.mpr fun c hc => bne_iff_ne.mpr (ne_of_mem_of_not_mem hc hquote)
  rw [piece, List.takeWhile_append_of_pos hinside, List.filter_append, hkept]
  rfl

theorem scannedName_of_cut {before rest : List Char} (h : IsCut "\"policy\":".toList text.toList before rest) :
    scannedName text = nameOf (trim (piece rest)) := by
  unfold scannedName cut? piece
  rw [splitOnce_eq_some_iff.mpr h]
  simp [nameOf, trimmed, without]

/-- What is left of the text after a closing quote. -/
def leftBehind (after : List Char) : List Char :=
  trimEnd (piece after)

theorem leftBehind_eq_nil_iff {after : List Char} :
    leftBehind after = [] ↔ ∀ c ∈ after.takeWhile (· != ','), c = '"' ∨ isBlank c := by
  rw [leftBehind, piece, trimEnd_eq_nil_iff]
  simp only [List.mem_filter, bne_iff_ne, and_imp]
  exact forall₂_congr fun c _ => or_iff_not_imp_left.symm

section
variable {before gap after : String} (htext : text = before ++ "\"policy\":" ++ gap ++ "\"" ++ name ++ "\"" ++ after)
  (hbefore : ¬"\"policy\":".toList <:+: before.toList) (hgap : isBlankText gap) (hname : IsName name)
  (hquote : '"' ∉ name.toList) (hcomma : ',' ∉ name.toList)

include htext hbefore hgap hname hquote hcomma in
theorem scannedName_of_quoted : scannedName text = name ++ String.ofList (leftBehind after.toList) := by
  have hcut : IsCut "\"policy\":".toList text.toList before.toList
      (gap.toList ++ ('"' :: (name.toList ++ '"' :: after.toList))) := by
    have hword : Unbordered "\"policy\":".toList := by decide
    convert IsCut.of_unbordered hword hbefore _ using 1
    simp [htext]
  have hblank : ∀ c ∈ gap.toList, isBlank c := List.all_eq_true.mp hgap
  have hgapQuote : '"' ∉ gap.toList := fun hmem => absurd (hblank _ hmem) (by decide)
  have hgapComma : ',' ∉ gap.toList := fun hmem => absurd (hblank _ hmem) (by decide)
  have hne : name.toList ≠ [] := by simpa using hname.nonempty
  have htrim : trim (gap.toList ++ (name.toList ++ piece after.toList)) = name.toList ++ leftBehind after.toList := by
    have haround := trim_around hblank (List.forall_mem_nil _) (name.toList ++ piece after.toList)
    rw [List.append_nil] at haround
    rw [haround, trim_append hname.trim hne]
    rfl
  rw [scannedName_of_cut hcut, piece_append hgapQuote hgapComma, piece_quote, piece_append hquote hcomma,
    piece_quote, htrim,
    nameOf, if_neg (List.append_ne_nil_of_left_ne_nil hne _), String.ofList_append, String.ofList_toList]

end

/-- A quoted name after the first `"policy":` is found together with what is left behind its closing
quote up to the next comma. So it is found alone exactly when only quotes and blanks are there. -/
theorem scan_finds_name_iff {before gap after : String}
    (htext : text = before ++ "\"policy\":" ++ gap ++ "\"" ++ name ++ "\"" ++ after)
    (hbefore : ¬"\"policy\":".toList <:+: before.toList) (hgap : isBlankText gap) (hname : IsName name)
    (hquote : '"' ∉ name.toList) (hcomma : ',' ∉ name.toList) (hscan : ¬ReadsAsFailures text) :
    let found := name ++ String.ofList (leftBehind after.toList)
    auditFailures text = [(found, [(found, text)])] ∧
      (auditFailures text = [(name, [(name, text)])] ↔
        ∀ c ∈ after.toList.takeWhile (· != ','), c = '"' ∨ isBlank c) := by
  intro found
  have hfound : auditFailures text = [(found, [(found, text)])] := by
    rw [auditFailures_of_scan hscan, scannedName_of_quoted htext hbefore hgap hname hquote hcomma]
  refine ⟨hfound, ?_⟩
  rw [hfound, ← leftBehind_eq_nil_iff]
  constructor
  · intro hsame
    have hsame : found = name := (Prod.mk.inj (List.singleton_inj.mp hsame)).1
    have hnothing : String.ofList (leftBehind after.toList) = "" := by simpa [found] using hsame
    simpa using hnothing
  · intro hnothing
    simp [found, hnothing]

/-- A text that is cut off, with a blank and a quote before the comma. -/
theorem scan_finds_name_iff_cut_off :
    let text := "\x7b" ++ "\"policy\":" ++ " " ++ "\"" ++ "check replicas" ++ "\"" ++ " \",\"binding"
    ¬ReadsAsFailures text ∧ auditFailures text = [("check replicas", [("check replicas", text)])] := by
  intro text
  have hscan : ¬ReadsAsFailures text := by decide +kernel
  have hname : IsName "check replicas" := by constructor <;> decide
  exact ⟨hscan, (scan_finds_name_iff rfl (by decide) (by decide) hname (by decide) (by decide) hscan).2.mpr
    (leftBehind_eq_nil_iff.mp (by decide))⟩

/-- A brace that closes the record is taken for a part of the name. -/
theorem scan_takes_in_brace :
    let text := "\x7b" ++ "\"policy\":" ++ "\"" ++ "check-replicas" ++ "\"" ++ "\x7d"
    ¬ReadsAsFailures text ∧ IsName "check-replicas" ∧ ¬"\"policy\":".toList <:+: "\x7b".toList ∧
      '"' ∉ "check-replicas".toList ∧ '\\' ∉ "check-replicas".toList ∧ ',' ∉ "check-replicas".toList ∧
      auditFailures text ≠ [("check-replicas", [("check-replicas", text)])] ∧
      auditFailures text = [("check-replicas\x7d", [("check-replicas\x7d", text)])] := by
  intro text
  have hname : IsName "check-replicas" := by constructor <;> decide
  have hfound : auditFailures text = [("check-replicas\x7d", [("check-replicas\x7d", text)])] := by decide +kernel
  refine ⟨by decide +kernel, hname, by decide, by decide, by decide, by decide, ?_, hfound⟩
  rw [hfound]
  decide

end AdmissionWatch.Policy
