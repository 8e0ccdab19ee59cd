import AdmissionWatch.Audit.Target
import AdmissionWatch.Proofs.Text.Occurrence

/-!
# What a message tells of its object

The phrase in which a message names the object of a denial may break off anywhere. `Tells` says how far
it goes, by the first occurrences of the texts that stand between its parts. A reference without uid
takes over what is told (`named_of_tells`) and keeps everything else, so that it takes over nothing more
when it is told the same again. Of a phrase that goes on to its end all three parts are told, whatever
stands around it (`Tells.of_phrase`).
-/

namespace AdmissionWatch.Audit

open Text

/-- The phrase in which a message names the object. -/
def phrase (kind namespaceName name : String) : String :=
  "resource " ++ kind ++ "/" ++ namespaceName ++ "/" ++ name ++ " was blocked"

theorem toList_phrase (kind namespaceName name : String) : (phrase kind namespaceName name).toList =
    "resource ".toList ++
      (kind.toList ++
        ("/".toList ++ (namespaceName.toList ++ ("/".toList ++ (name.toList ++ " was blocked".toList))))) := by
  unfold phrase
  simp only [String.toList_append, List.append_assoc]

theorem not_occurs_phrase {message : String} (h : ¬" was blocked".toList <:+: message.toList)
    (kind namespaceName name : String) : ¬(phrase kind namespaceName name).toList <:+: message.toList := by
  intro hin
  have hends : " was blocked".toList <:+ (phrase kind namespaceName name).toList := ⟨_, String.toList_append.symm⟩
  exact h (hends.isInfix.trans hin)

/-- Whether a message begins to name the object, with the kind and the slash before `rest`. -/
def Opens (message kind rest : String) : Prop :=
  ∃ before denied middle phrase : String,
    IsCut "denied the request:".toList message.toList before.toList denied.toList ∧
    IsCut "resource ".toList denied.toList middle.toList phrase.toList ∧
    IsCut "/".toList phrase.toList kind.toList rest.toList

theorem not_occurs_slash {s : String} (h : '/' ∉ s.toList) : ¬"/".toList <:+: s.toList :=
  fun hin => h (hin.subset List.mem_cons_self)

theorem isCut_slash {before : String} (h : '/' ∉ before.toList) (after : String) :
    IsCut "/".toList (before ++ "/" ++ after).toList before.toList after.toList :=
  .of_strings (by decide) (not_occurs_slash h) after

/-- What a message may tell of the object. -/
inductive Told where
  | nothing
  | resource (kind : String)
  | namespaced (kind namespaceName : String)
  | whole (kind namespaceName name : String)

/-- How far a message goes in naming the object. -/
inductive Tells (message : String) : Told → Prop
  | nothing (h : ∀ kind rest, ¬Opens message kind rest) : Tells message .nothing
  | resource {kind rest : String} (h : Opens message kind rest) (hrest : ¬"/".toList <:+: rest.toList) :
    Tells message (.resource kind)
  | namespaced {kind rest namespaceName more : String} (h : Opens message kind rest)
      (hrest : IsCut "/".toList rest.toList namespaceName.toList more.toList)
      (hmore : ¬" was blocked".toList <:+: more.toList) :
    Tells message (.namespaced kind namespaceName)
  | whole {kind rest namespaceName more name after : String} (h : Opens message kind rest)
      (hrest : IsCut "/".toList rest.toList namespaceName.toList more.toList)
      (hmore : IsCut " was blocked".toList more.toList name.toList after.toList) :
    Tells message (.whole kind namespaceName name)

/-- Two references agree in everything that no message tells of. -/
structure Keeps (ref found : ObjectRef) : Prop where
  uid : found.uid = ref.uid
  apiGroup : found.apiGroup = ref.apiGroup
  apiVersion : found.apiVersion = ref.apiVersion
  resourceVersion : found.resourceVersion = ref.resourceVersion
  subresource : found.subresource = ref.subresource

namespace Told

/-- The reference with what is told. -/
def apply (ref : ObjectRef) : Told → ObjectRef
  | .nothing => ref
  | .resource kind => { ref with resource := kind }
  | .namespaced kind namespaceName => { ref with resource := kind, namespaceName := namespaceName }
  | .whole kind namespaceName name => { ref with resource := kind, namespaceName := namespaceName, name := name }

variable (told : Told) (ref : ObjectRef)

theorem keeps_apply : Keeps ref (told.apply ref) := by
  cases told <;> constructor <;> rfl

theorem apply_apply : told.apply (told.apply ref) = told.apply ref := by
  cases told <;> rfl

end Told

theorem exists_tells (message : String) : ∃ told, Tells message told := by
  by_cases h : ∃ kind rest, Opens message kind rest
  · obtain ⟨kind, rest, hopens⟩ := h
    rcases hrest : cut? "/" rest with _ | ⟨namespaceName, more⟩
    · exact ⟨_, .resource hopens (cut?_eq_none_iff.mp hrest)⟩
    · rw [cut?_eq_some_iff] at hrest
      rcases hmore : cut? " was blocked" more with _ | ⟨name, after⟩
      · exact ⟨_, .namespaced hopens hrest (cut?_eq_none_iff.mp hmore)⟩
      · exact ⟨_, .whole hopens hrest (cut?_eq_some_iff.mp hmore)⟩
  · push Not at h
    exact ⟨_, .nothing h⟩

/-- Where all three parts are told, they stand in a phrase. -/
theorem Tells.phrase_occurs {message kind namespaceName name : String}
    (h : Tells message (.whole kind namespaceName name)) :
    (phrase kind namespaceName name).toList <:+: message.toList := by
  cases h with
  | @whole _ rest _ more _ after hopens hrest hmore =>
    obtain ⟨before, denied, middle, opened, hdenied, hresource, hkind⟩ := hopens
    refine ⟨before.toList ++ "denied the request:".toList ++ middle.toList, after.toList, ?_⟩
    rw [hdenied.eq, hresource.eq, hkind.eq, hrest.eq, hmore.eq]
    simp only [toList_phrase, List.append_assoc]

namespace ObjectRef

variable {message : String} {ref : ObjectRef} {told : Told}

theorem named_of_uid (huid : ref.uid ≠ "") : ref.named message = ref :=
  if_pos huid

theorem named_of_not_opens (h : ∀ kind rest, ¬Opens message kind rest) : ref.named message = ref := by
  rcases hdenied : cut? "denied the request:" message with _ | ⟨before, denied⟩
  · simp [named, hdenied]
  rcases hphrase : cut? "resource " denied with _ | ⟨middle, phrase⟩
  · simp [named, hdenied, hphrase]
  rcases hslash : cut? "/" phrase with _ | ⟨kind, rest⟩
  · simp [named, hdenied, hphrase, hslash]
  · rw [cut?_eq_some_iff] at hdenied hphrase hslash
    exact absurd ⟨before, denied, middle, phrase, hdenied, hphrase, hslash⟩ (h kind rest)

theorem named_of_opens {kind rest : String} (h : Opens message kind rest) (huid : ref.uid = "") : ref.named message =
    match cut? "/" rest with
    | none => { ref with resource := kind }
    | some (namespaceName, more) =>
      match cut? " was blocked" more with
      | none => { ref with resource := kind, namespaceName := namespaceName }
      | some (name, _) => { ref with resource := kind, namespaceName := namespaceName, name := name } := by
  obtain ⟨before, denied, middle, phrase, hdenied, hphrase, hslash⟩ := h
  rw [← cut?_eq_some_iff] at hdenied hphrase hslash
  rcases hrest : cut? "/" rest with _ | ⟨namespaceName, more⟩
  · simp [named, huid, hdenied, hphrase, hslash, hrest]
  rcases hmore : cut? " was blocked" more with _ | ⟨name, after⟩
  · simp [named, huid, hdenied, hphrase, hslash, hrest, hmore]
  · simp [named, huid, hdenied, hphrase, hslash, hrest, hmore]

theorem named_of_tells (h : Tells message told) (huid : ref.uid = "") : ref.named message = told.apply ref := by
  cases h with
  | nothing h => exact named_of_not_opens h
  | resource h hrest =>
    simp only [named_of_opens h huid, cut?_eq_none_iff.mpr hrest, Told.apply]
  | namespaced h hrest hmore =>
    rw [← cut?_eq_some_iff] at hrest
    simp only [named_of_opens h huid, hrest, cut?_eq_none_iff.mpr hmore, Told.apply]
  | whole h hrest hmore =>
    rw [← cut?_eq_some_iff] at hrest hmore
    simp only [named_of_opens h huid, hrest, hmore, Told.apply]

/-- Whatever a message says, what it does to a reference is to tell it something or nothing. -/
theorem exists_named (ref : ObjectRef) (message : String) :
    ∃ told : Told, ref.named message = told.apply ref ∧ (told.apply ref).named message = told.apply ref := by
  by_cases huid : ref.uid = ""
  · obtain ⟨told, h⟩ := exists_tells message
    refine ⟨told, named_of_tells h huid, ?_⟩
    rw [named_of_tells h ((told.keeps_apply ref).uid.trans huid), told.apply_apply]
  · exact ⟨.nothing, named_of_uid huid, named_of_uid huid⟩

section
variable {kind rest : String}

theorem resource_named (h : Opens message kind rest) (huid : ref.uid = "") : (ref.named message).resource = kind := by
  rw [named_of_opens h huid]
  split
  · rfl
  · split <;> rfl

theorem namespaceName_named_of_no_slash (h : Opens message kind rest) (hrest : '/' ∉ rest.toList)
    (huid : ref.uid = "") : (ref.named message).namespaceName = ref.namespaceName := by
  rw [named_of_tells (.resource h (not_occurs_slash hrest)) huid]
  rfl

theorem namespaceName_named {namespaceName more : String} (h : Opens message kind (namespaceName ++ "/" ++ more))
    (hnamespace : '/' ∉ namespaceName.toList) (huid : ref.uid = "") :
    (ref.named message).namespaceName = namespaceName := by
  have hrest := cut?_eq_some_iff.mpr (isCut_slash hnamespace more)
  simp only [named_of_opens h huid, hrest]
  split <;> rfl

/-- Only a phrase in full changes the name. -/
theorem name_named (h : ∀ kind namespaceName name, ¬(phrase kind namespaceName name).toList <:+: message.toList) :
    (ref.named message).name = ref.name := by
  by_cases huid : ref.uid = ""
  · obtain ⟨told, htells⟩ := exists_tells message
    rw [named_of_tells htells huid]
    cases told with
    | whole kind namespaceName name => exact absurd htells.phrase_occurs (h kind namespaceName name)
    | _ => rfl
  · rw [named_of_uid huid]

end

end ObjectRef

section
variable {before middle kind : String} (hbefore : ¬"denied the request:".toList <:+: before.toList)
  (hmiddle : ¬"resource ".toList <:+: middle.toList) (hkind : '/' ∉ kind.toList)
include hbefore hmiddle hkind

theorem Opens.of_parts (rest : String) :
    Opens (before ++ "denied the request:" ++ (middle ++ "resource " ++ (kind ++ "/" ++ rest))) kind rest := by
  have hdenied : Unbordered "denied the request:".toList := by decide
  have hresource : Unbordered "resource ".toList := by decide
  exact ⟨before, _, middle, kind ++ "/" ++ rest, .of_strings hdenied hbefore _, .of_strings hresource hmiddle _,
    isCut_slash hkind rest⟩

theorem Tells.of_phrase {namespaceName name : String} (hnamespace : '/' ∉ namespaceName.toList)
    (hname : ¬" was blocked".toList <:+: name.toList) (after : String) :
    Tells (before ++ "denied the request:" ++ middle ++ phrase kind namespaceName name ++ after)
      (.whole kind namespaceName name) := by
  have hblocked : Unbordered " was blocked".toList := by decide
  let more := name ++ " was blocked" ++ after
  have hopens := Opens.of_parts hbefore hmiddle hkind (namespaceName ++ "/" ++ more)
  have htells := Tells.whole hopens (isCut_slash hnamespace more) (.of_strings hblocked hname after)
  have htext : before ++ "denied the request:" ++ middle ++ phrase kind namespaceName name ++ after =
      before ++ "denied the request:" ++
        (middle ++ "resource " ++ (kind ++ "/" ++ (namespaceName ++ "/" ++ more))) := by
    rw [← String.toList_inj]
    simp only [toList_phrase, more, String.toList_append, List.append_assoc]
  exact htext ▸ htells

end

/-- The three parts of a phrase in full are taken from it, whatever they are made of and whatever stands
around it. Nothing else of a reference is touched by any message, nothing at all of one with a uid or by
a message of no denial, and nothing more by the same message again. -/
theorem named_recovers_object :
    (∀ (ref : ObjectRef) (before middle kind namespaceName name after : String), ref.uid = "" →
      ¬"denied the request:".toList <:+: before.toList → ¬"resource ".toList <:+: middle.toList →
      '/' ∉ kind.toList → '/' ∉ namespaceName.toList → ¬" was blocked".toList <:+: name.toList →
      ref.named (before ++ "denied the request:" ++ middle ++ phrase kind namespaceName name ++ after) =
        { ref with resource := kind, namespaceName := namespaceName, name := name }) ∧
    ∀ (ref : ObjectRef) (message : String),
      Keeps ref (ref.named message) ∧
      (ref.uid ≠ "" ∨ ¬"denied the request:".toList <:+: message.toList → ref.named message = ref) ∧
      (ref.named message).named message = ref.named message := by
  refine ⟨?_, fun ref message => ?_⟩
  · intro ref before middle kind namespaceName name after huid hbefore hmiddle hkind hnamespace hname
    exact ObjectRef.named_of_tells (.of_phrase hbefore hmiddle hkind hnamespace hname after) huid
  · obtain ⟨told, htold, hagain⟩ := ObjectRef.exists_named ref message
    refine ⟨htold ▸ told.keeps_apply ref, ?_, by rw [htold, hagain]⟩
    rintro (huid | hdenied)
    · exact ObjectRef.named_of_uid huid
    · refine ObjectRef.named_of_not_opens fun kind rest => ?_
      rintro ⟨before, denied, -, -, hcut, -⟩
      exact hdenied ⟨before.toList, denied.toList, by rw [hcut.eq, List.append_assoc]⟩

/-- A name with slashes, in a message whose parts hold most of the texts that separate them; a reference
with a uid ignores it. -/
theorem named_recovers_object_among_fragments :
    let ref : ObjectRef := { resource := "pods", name := "old", apiVersion := "v1" }
    let message := "resource a/b/c was blocked: denied the request" ++ "denied the request:" ++
      " denied the request: resource" ++
      phrase "resource Pod" "team was blocked" "a/b was block" ++ " was blocked resource x/y/z was blocked"
    ref.named message =
        { ref with resource := "resource Pod", namespaceName := "team was blocked", name := "a/b was block" } ∧
      ({ ref with uid := "u-1" } : ObjectRef).named message = { ref with uid := "u-1" } := by
  intro ref message
  constructor
  · exact named_recovers_object.1 ref _ _ _ _ _ _ rfl (by decide) (by decide) (by decide) (by decide) (by decide)
  · exact (named_recovers_object.2 _ message).2.1 (.inl (by decide))

end AdmissionWatch.Audit
