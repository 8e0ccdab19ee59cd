import AdmissionWatch.Policy.Kyverno
import AdmissionWatch.Proofs.Detection.MarkerSet
import AdmissionWatch.Proofs.Dict
import AdmissionWatch.Proofs.Text.Occurrence
import AdmissionWatch.Proofs.Yaml.Block

/-!
# Denials that list their policies

A denial that lists policies with their rules and what these found is read back: the answer is the map
of just the policies that were listed, whatever was said before the list and whatever characters the
details hold (`kyverno_of_listed`).
-/

namespace AdmissionWatch.Policy

open Text Detection Yaml

/-- The text of a block: its lines, with a break between two of them. -/
def blockText (block : Block) : String :=
  String.ofList (['\n'].intercalate (blockLines block))

theorem intercalate_eq_broken {lines : List (List Char)} (h : lines ≠ []) :
    '\n' :: ['\n'].intercalate lines = broken lines := by
  induction lines with
  | nil => exact absurd rfl h
  | cons line lines ih =>
    cases lines with
    | nil => simp [broken]
    | cons next lines =>
      have hnext := ih (List.cons_ne_nil _ _)
      simp only [broken, List.flatMap_cons] at hnext ⊢
      simp [← hnext, List.intercalate]

theorem ofBlock_of_read? {block : Block} {text : String} (h : Value.read? text = some (blockValue block)) :
    ofBlock text = Dict.ofEntries (block.map fun part => (part.1, Dict.ofEntries part.2)) := by
  simp [ofBlock, h, blockValue, rulesOf, detailText, Value.scalarText?, List.filterMap_map]

variable {before ending : String} {block : Block}

theorem blockLines_ne_nil (hblock : IsBlock block) : blockLines block ≠ [] := by
  obtain ⟨part, block, rfl⟩ := List.exists_cons_of_ne_nil hblock.nonempty
  simp [blockLines, partLines]

theorem colon_mem_broken (hblock : IsBlock block) : ':' ∈ broken (blockLines block) := by
  obtain ⟨part, block, rfl⟩ := List.exists_cons_of_ne_nil hblock.nonempty
  simp [broken, blockLines, partLines]

/-- The phrase cuts off what was said before the list, and the list is not blank. -/
theorem kyverno_eq_ofBlock {message text : String} (hwebhook : "admission webhook".toList <:+: before.toList)
    (hdenied : "denied the request:".toList <:+: before.toList)
    (hphrase : ¬"due to the following policies".toList <:+: before.toList)
    (hmessage : message = before ++ policiesPhrase ++ text) (hblank : isBlankText text = false) :
    kyverno message = ofBlock text := by
  have hmarkers : hasAll (Marker.scan message) [.admissionWebhook, .deniedTheRequest] := by
    have hbefore : before.toList <:+: message.toList :=
      ⟨[], policiesPhrase.toList ++ text.toList, by simp [hmessage]⟩
    exact hasAll_pair_iff.mpr ⟨hwebhook.trans hbefore, hdenied.trans hbefore⟩
  have hcut : cut? policiesPhrase message = some (before, text) := by
    have hunbordered : Unbordered policiesPhrase.toList := by decide
    rw [cut?_eq_some_iff, hmessage]
    exact .of_strings hunbordered hphrase text
  simp [kyverno, hmarkers, hcut, hblank]

/-- The policies of a denial are those that it lists, each with the rules that it lists under it and
the details of these, whatever is said before the list and whether or not its last line is ended. -/
theorem kyverno_of_listed (hblock : IsBlock block) (hwebhook : "admission webhook".toList <:+: before.toList)
    (hdenied : "denied the request:".toList <:+: before.toList)
    (hphrase : ¬"due to the following policies".toList <:+: before.toList) (hending : ending = "" ∨ ending = "\n") :
    let policies := kyverno (before ++ "due to the following policies \n\n" ++ blockText block ++ ending)
    Dict.Sorted policies ∧ ∀ policy rules, (policy, rules) ∈ policies ↔
      Dict.Sorted rules ∧ ∃ listed, (policy, listed) ∈ block ∧ rules.Perm listed := by
  intro policies
  have htext : (" \n\n" ++ blockText block ++ ending).toList =
      [' ', '\n'] ++ (broken (blockLines block) ++ ending.toList) := by
    simp [blockText, ← intercalate_eq_broken (blockLines_ne_nil hblock)]
  have hgap : Scanner.IsGap ending.toList := by
    rcases hending with rfl | rfl <;> simp [Scanner.IsGap]
  have hblank : isBlankText (" \n\n" ++ blockText block ++ ending) = false := by
    rw [isBlankText, htext, List.all_eq_false]
    exact ⟨':', by simp [colon_mem_broken hblock], by decide⟩
  have hpolicies : policies = Dict.ofEntries (block.map fun part => (part.1, Dict.ofEntries part.2)) := by
    rw [← ofBlock_of_read? (hblock.read? hgap htext)]
    refine kyverno_eq_ofBlock hwebhook hdenied hphrase ?_ hblank
    rw [← String.toList_inj]
    simp [policiesPhrase]
  have hnames : ((block.map fun part => (part.1, Dict.ofEntries part.2)).map Prod.fst).Nodup := by
    rw [List.map_map]
    exact hblock.names
  obtain ⟨hsorted, hperm⟩ := (Dict.eq_ofEntries_iff hnames).mp hpolicies
  refine ⟨hsorted, fun policy rules => ?_⟩
  rw [hperm.mem_iff, List.mem_map]
  constructor
  · rintro ⟨part, hpart, heq⟩
    cases heq
    obtain ⟨hrules, hlisted⟩ := (Dict.eq_ofEntries_iff (hblock.entries part hpart)).mp rfl
    exact ⟨hrules, part.2, hpart, hlisted⟩
  · rintro ⟨hrules, listed, hpart, hlisted⟩
    refine ⟨_, hpart, Prod.ext rfl ?_⟩
    exact ((Dict.eq_ofEntries_iff (hblock.entries _ hpart)).mpr ⟨hrules, hlisted⟩).symm

/-- Names and details that would mean something else, were they not quoted, out of order. -/
theorem kyverno_of_listed_quoted :
    let block : Block :=
      [("null", [("it's", "a: 'b' # [c"), ("- 7", "")]), ("check-labels", [("true", "--- \x7b*\x7d")])]
    let policies :=
      kyverno
        ("admission webhook: denied the request: " ++ "due to the following policies \n\n" ++ blockText block ++ "\n")
    IsBlock block ∧ ("null", [("- 7", ""), ("it's", "a: 'b' # [c")]) ∈ policies ∧
      ("check-labels", [("true", "--- \x7b*\x7d")]) ∈ policies := by
  intro block policies
  have hblock : IsBlock block := by
    refine ⟨by decide, ?_, by decide, by decide⟩
    exact List.forall_mem_cons.mpr ⟨⟨by decide, by decide, by decide⟩,
      List.forall_mem_singleton.mpr ⟨by decide, by decide, by decide⟩⟩
  have hlisted := @kyverno_of_listed "admission webhook: denied the request: " "\n" block hblock (by decide) (by decide)
    (by decide) (.inr rfl)
  refine ⟨hblock, (hlisted.2 _ _).mpr ⟨by decide, _, List.mem_cons_self, ?_⟩,
    (hlisted.2 _ _).mpr ⟨by decide, _, List.mem_cons_of_mem _ List.mem_cons_self, .refl _⟩⟩
  exact .swap _ _ _

end AdmissionWatch.Policy
