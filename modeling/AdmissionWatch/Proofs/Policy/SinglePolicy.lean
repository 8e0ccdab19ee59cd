import AdmissionWatch.Policy.Extraction
import AdmissionWatch.Proofs.Detection.MarkerSet
import AdmissionWatch.Proofs.Text.Blank
import AdmissionWatch.Proofs.Text.Occurrence

/-!
# Denials that name one policy

Three kinds of denial name one policy, each between two fixed texts. Whatever a message says, what is
read from it is one policy with one rule of the same name, which found the whole message, and the name
is what stands between the first two such texts or `unknown` (`NamesOne`). From a message put together
in the form of a denial the name that was put into it is read, since neither of the texts can arise at
a joint of the form.
-/

namespace AdmissionWatch.Policy

open Text Detection

/-- The name of a policy in a denial: not empty and without blanks at either end. -/
structure IsName (name : String) : Prop where
  nonempty : name ≠ ""
  trimmed : trimmed name = name

/-- One policy with one rule of the same name, which found the whole message. The name is what `clean`
leaves of the text between the first `start` and the first `stop` after it, without blanks at either
end; it is unknown when there is no such text or nothing is left of it. -/
def NamesOne (start stop : String) (clean : List Char → List Char) (message : String) (policies : PolicyMap) : Prop :=
  ∃ name, policies = [(name, [(name, message)])] ∧ isBlankText name = false ∧ Text.trimmed name = name ∧
    ((∃ inner, Between start.toList stop.toList message.toList inner ∧
        name = String.ofList (trim (clean inner))) ∨
     (name = unknownName ∧
       ∀ inner, Between start.toList stop.toList message.toList inner → trim (clean inner) = []))

/-- The name that is taken from what is left of a text; `unknown` when nothing is. -/
def nameOf (left : List Char) : String :=
  if left = [] then unknownName else String.ofList left

/-- A text without its single quotes. -/
def noQuotes (s : List Char) : List Char :=
  s.filter (· != '\'')

variable {start stop message name : String} {clean : List Char → List Char} {inner : List Char}

theorem isName_nameOf (left : List Char) : IsName (nameOf (trim left)) := by
  unfold nameOf
  split
  · constructor <;> decide
  · rename_i hne
    constructor
    · simpa using hne
    · simp [trimmed]

theorem IsName.isBlankText (h : IsName name) : isBlankText name = false := by
  rw [isBlankText_eq_false_iff, h.trimmed]
  exact h.nonempty

theorem IsName.nameOf (h : IsName name) : nameOf name.toList = name := by
  simp [Policy.nameOf, h.nonempty]

theorem IsName.trim (h : IsName name) : trim name.toList = name.toList := by
  rw [← String.toList_ofList (l := Text.trim name.toList)]
  exact congrArg String.toList h.trimmed

theorem IsName.trim_cons (h : IsName name) : Text.trim (' ' :: name.toList) = name.toList := by
  have haround := trim_around (List.forall_mem_singleton.mpr (by decide : isBlank ' '))
    (List.forall_mem_nil _) name.toList
  rwa [List.append_nil, h.trim] at haround

theorem getD_between? (h : Between start.toList stop.toList message.toList inner) :
    (between? start stop message).getD unknownName = nameOf (trim inner) := by
  rw [between?_of_between h, nameOf]
  split <;> rfl

theorem namesOne_of_between (clean : List Char → List Char)
    (h : Between start.toList stop.toList message.toList inner) :
    NamesOne start stop clean message (single (nameOf (trim (clean inner))) message) := by
  refine ⟨_, rfl, (isName_nameOf _).isBlankText, (isName_nameOf _).trimmed, ?_⟩
  by_cases hnil : trim (clean inner) = []
  · refine .inr ⟨by rw [hnil]; rfl, fun inner' h' => ?_⟩
    rwa [h'.unique h]
  · exact .inl ⟨inner, h, if_neg hnil⟩

theorem namesOne_of_not_between (clean : List Char → List Char)
    (h : ¬∃ inner, Between start.toList stop.toList message.toList inner) :
    NamesOne start stop clean message (single unknownName message) :=
  have hunknown : IsName unknownName := isName_nameOf []
  ⟨_, rfl, hunknown.isBlankText, hunknown.trimmed, .inr ⟨rfl, fun inner h' => absurd ⟨inner, h'⟩ h⟩⟩

/-! ### After the phrase of a webhook -/

theorem namesOne_afterPhrase (stop message : String) :
    NamesOne namePhrase stop id message (single ((between? namePhrase stop message).getD unknownName) message) := by
  by_cases h : ∃ inner, Between namePhrase.toList stop.toList message.toList inner
  · obtain ⟨inner, h⟩ := h
    rw [getD_between? h]
    exact namesOne_of_between id h
  · rw [between?_of_not_between (not_exists.mp h)]
    exact namesOne_of_not_between id h

/-- A text put between the phrase and `stop` stands between the first of them, unless it holds `stop` or
the phrase stands further in front. -/
theorem between_afterPhrase {before : String} (hstop : Unbordered stop.toList)
    (hbefore : ¬namePhrase.toList <:+: before.toList) (hname : ¬stop.toList <:+: (" " ++ name).toList)
    (detail : String) :
    Between namePhrase.toList stop.toList (before ++ "denied the request: Policy " ++ name ++ stop ++ detail).toList
      (' ' :: name.toList) := by
  have hphrase : Unbordered namePhrase.toList := by decide
  refine ⟨before.toList, ' ' :: name.toList ++ (stop.toList ++ detail.toList), detail.toList, ?_,
    .of_unbordered hstop (by simpa using hname) _⟩
  convert IsCut.of_unbordered hphrase hbefore _ using 1
  simp [namePhrase]

theorem single_afterPhrase {before : String} (hstop : Unbordered stop.toList)
    (hbefore : ¬namePhrase.toList <:+: before.toList) (hname : IsName name)
    (hfree : ¬stop.toList <:+: (" " ++ name).toList) (detail message : String)
    (hmessage : message = before ++ "denied the request: Policy " ++ name ++ stop ++ detail) :
    single ((between? namePhrase stop message).getD unknownName) message = [(name, [(name, message)])] := by
  rw [getD_between? (hmessage ▸ between_afterPhrase hstop hbefore hfree detail), hname.trim_cons, hname.nameOf]
  rfl

/-! ### Quoted after the word -/

theorem nameOf_toList (name : String) : nameOf name.toList = if name = "" then unknownName else name := by
  simp [nameOf]

/-- The quotes may be left out before the blanks are, and from `unknown` there is nothing to leave out. -/
theorem trimmed_without_nameOf (inner : List Char) :
    nameOf (trimmed (without '\'' (nameOf (trim inner)))).toList = nameOf (trim (noQuotes inner)) := by
  by_cases hnil : trim inner = []
  · rw [noQuotes, ← trim_filter_trim, hnil]
    decide
  · simp only [nameOf, if_neg hnil, trimmed, without, noQuotes, String.toList_ofList, trim_filter_trim]
    rfl

theorem hasAll_policy_iff : hasAll (Marker.scan message) [.validatingAdmissionPolicy, .deniedRequest] ↔
    "ValidatingAdmissionPolicy".toList <:+: message.toList ∧ "denied request:".toList <:+: message.toList :=
  hasAll_pair_iff

theorem validatingAdmission_of_between
    (hmarkers : hasAll (Marker.scan message) [.validatingAdmissionPolicy, .deniedRequest])
    (h : Between Marker.validatingAdmissionPolicy.text.toList " with binding ".toList message.toList inner) :
    validatingAdmission message = single (nameOf (trim (noQuotes inner))) message := by
  rw [validatingAdmission, if_pos hmarkers]
  simp only [getD_between? h, ← nameOf_toList, trimmed_without_nameOf]

theorem validatingAdmission_of_not_between
    (hmarkers : hasAll (Marker.scan message) [.validatingAdmissionPolicy, .deniedRequest])
    (h : ¬∃ inner,
      Between Marker.validatingAdmissionPolicy.text.toList " with binding ".toList message.toList inner) :
    validatingAdmission message = single unknownName message := by
  have hunknown : trimmed (without '\'' unknownName) = unknownName := by decide
  rw [validatingAdmission, if_pos hmarkers, between?_of_not_between (not_exists.mp h)]
  simp only [Option.getD_none, hunknown]
  rfl

theorem namesOne_validatingAdmission
    (hmarkers : hasAll (Marker.scan message) [.validatingAdmissionPolicy, .deniedRequest]) :
    NamesOne Marker.validatingAdmissionPolicy.text " with binding " noQuotes message (validatingAdmission message) := by
  by_cases h : ∃ inner,
    Between Marker.validatingAdmissionPolicy.text.toList " with binding ".toList message.toList inner
  · obtain ⟨inner, h⟩ := h
    rw [validatingAdmission_of_between hmarkers h]
    exact namesOne_of_between noQuotes h
  · rw [validatingAdmission_of_not_between hmarkers h]
    exact namesOne_of_not_between noQuotes h

section
variable {before binding detail : String} (hbefore : ¬"ValidatingAdmissionPolicy".toList <:+: before.toList)
  (hname : IsName name) (hquote : '\'' ∉ name.toList) (hfree : ¬" with binding ".toList <:+: name.toList)
  (hmessage : message = before ++ "ValidatingAdmissionPolicy '" ++ name ++ "' with binding '" ++ binding ++
    "' denied request: " ++ detail)

include hbefore hfree hmessage in
theorem between_quoted :
    Between Marker.validatingAdmissionPolicy.text.toList " with binding ".toList message.toList
      (' ' :: '\'' :: (name.toList ++ ['\''])) := by
  have hword : Unbordered Marker.validatingAdmissionPolicy.text.toList := by decide
  have hquote : '\'' ∉ " with binding ".toList := by decide
  have hsep : " with binding ".toList ≠ [] := by decide
  let after := '\'' :: (binding.toList ++ "' denied request: ".toList ++ detail.toList)
  have hstop : IsCut " with binding ".toList
      ([' '] ++ '\'' :: (name.toList ++ '\'' :: (" with binding ".toList ++ after)))
      ([' '] ++ '\'' :: (name.toList ++ ['\''])) after :=
    ((IsCut.head _ after).guarded hquote hsep hfree).guarded hquote hsep (by decide)
  refine ⟨before.toList, _, after, ?_, hstop⟩
  convert IsCut.of_unbordered hword hbefore _ using 1
  simp [hmessage, after, Marker.text]

include hmessage in
theorem hasAll_quoted : hasAll (Marker.scan message) [.validatingAdmissionPolicy, .deniedRequest] := by
  have hword : message = before ++ "ValidatingAdmissionPolicy" ++
      (" '" ++ name ++ "' with binding '" ++ binding ++ "' denied request: " ++ detail) := by
    rw [hmessage, ← String.toList_inj]
    simp
  have hdenied : message = before ++ "ValidatingAdmissionPolicy '" ++ name ++ "' with binding '" ++ binding ++ "' " ++
      "denied request:" ++ (" " ++ detail) := by
    rw [hmessage, ← String.toList_inj]
    simp
  have hpart : ∀ {a b c : String}, message = a ++ b ++ c → b.toList <:+: message.toList := by
    rintro a b c rfl
    exact ⟨a.toList, c.toList, by simp⟩
  exact hasAll_policy_iff.mpr ⟨hpart hword, hpart hdenied⟩

include hbefore hname hquote hfree hmessage in
theorem validatingAdmission_quoted : validatingAdmission message = [(name, [(name, message)])] := by
  have hleft : trim (noQuotes (' ' :: '\'' :: (name.toList ++ ['\'']))) = name.toList := by
    have hkeep : name.toList.filter (· != '\'') = name.toList :=
      List.filter_eq_self.mpr fun c hc => bne_iff_ne.mpr fun heq => hquote (heq ▸ hc)
    have hdrop : noQuotes (' ' :: '\'' :: (name.toList ++ ['\''])) = ' ' :: name.toList := by
      simp [noQuotes, hkeep]
    rw [hdrop, hname.trim_cons]
  rw [validatingAdmission_of_between (hasAll_quoted hmessage) (between_quoted hbefore hfree hmessage),
    hleft, hname.nameOf]
  rfl

end

/-! ### The three extractors -/

/-- From a message in the form of a denial the name in it is read, whatever stands before the form,
in the place of the binding and after it; and from every message one policy is read or, when it is no
message of the third form, none. -/
theorem single_policy_of_denial :
    (∀ before name detail : String, IsName name → ¬namePhrase.toList <:+: before.toList →
      ¬" failed:".toList <:+: (" " ++ name).toList →
      let message := before ++ "denied the request: Policy " ++ name ++ " failed:" ++ detail
      validating message = [(name, [(name, message)])]) ∧
    (∀ before name detail : String, IsName name → ¬namePhrase.toList <:+: before.toList →
      ¬" error:".toList <:+: (" " ++ name).toList →
      let message := before ++ "denied the request: Policy " ++ name ++ " error:" ++ detail
      imageValidating message = [(name, [(name, message)])]) ∧
    (∀ before name binding detail : String, IsName name →
      ¬"ValidatingAdmissionPolicy".toList <:+: before.toList →
      '\'' ∉ name.toList → ¬" with binding ".toList <:+: name.toList →
      let message := before ++ "ValidatingAdmissionPolicy '" ++ name ++ "' with binding '" ++ binding ++
        "' denied request: " ++ detail
      validatingAdmission message = [(name, [(name, message)])]) ∧
    ∀ message : String,
      NamesOne "denied the request: Policy" " failed:" id message (validating message) ∧
      NamesOne "denied the request: Policy" " error:" id message (imageValidating message) ∧
      if "ValidatingAdmissionPolicy".toList <:+: message.toList ∧ "denied request:".toList <:+: message.toList then
        NamesOne "ValidatingAdmissionPolicy" " with binding " noQuotes message (validatingAdmission message)
      else validatingAdmission message = [] := by
  refine ⟨fun before name detail hname hbefore hfree => ?_, fun before name detail hname hbefore hfree => ?_,
    fun before name binding detail hname hbefore hquote hfree => ?_, fun message => ⟨?_, ?_, ?_⟩⟩
  · exact single_afterPhrase (by decide) hbefore hname hfree detail _ rfl
  · exact single_afterPhrase (by decide) hbefore hname hfree detail _ rfl
  · exact validatingAdmission_quoted hbefore hname hquote hfree rfl
  · exact namesOne_afterPhrase " failed:" message
  · exact namesOne_afterPhrase " error:" message
  · split <;> rename_i hmarkers
    · exact namesOne_validatingAdmission (hasAll_policy_iff.mpr hmarkers)
    · exact if_neg fun hall => hmarkers (hasAll_policy_iff.mp hall)

/-- A name that holds the start of the text after it, a detail that holds both texts again, and
quotes in the place of the binding. -/
theorem single_policy_of_denial_with_texts_again :
    let denial := "denied: " ++ "denied the request: Policy " ++ "no failed" ++ " failed:" ++
      " denied the request: Policy other failed:"
    let error := "denied: " ++ "denied the request: Policy " ++ "no failed:" ++ " error:" ++ " failed:"
    let native := "policies: " ++ "ValidatingAdmissionPolicy '" ++ "no with binding" ++ "' with binding '" ++
      "' with binding '" ++ "' denied request: " ++ ""
    validating denial = [("no failed", [("no failed", denial)])] ∧
      imageValidating error = [("no failed:", [("no failed:", error)])] ∧
      validatingAdmission native = [("no with binding", [("no with binding", native)])] := by
  have hfailed : IsName "no failed" := by constructor <;> decide
  have hcolon : IsName "no failed:" := by constructor <;> decide
  have hbinding : IsName "no with binding" := by constructor <;> decide
  exact ⟨single_policy_of_denial.1 _ _ _ hfailed (by decide) (by decide),
    single_policy_of_denial.2.1 _ _ _ hcolon (by decide) (by decide),
    single_policy_of_denial.2.2.1 _ _ _ _ hbinding (by decide) (by decide) (by decide)⟩

end AdmissionWatch.Policy
