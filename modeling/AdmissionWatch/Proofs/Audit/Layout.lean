import Mathlib.Data.List.Forall2
import AdmissionWatch.Audit.Wire
import AdmissionWatch.Detection
import AdmissionWatch.Event.OfAudit
import AdmissionWatch.Proofs.Json.Grammar
import AdmissionWatch.Proofs.Json.Record
import AdmissionWatch.Proofs.Json.Written

/-!
# The layout of audit records

A line of an audit log is read the same in any layout (`lines_read_alike`): the members of the record
and of the objects in it may come in any order, other members may stand among them, whatever they
hold, and blanks may stand between all of these. So nothing that is made of the record depends on the
layout. Of the other members it is only asked that their keys denote characters: a key with half a
surrogate pair is no name at all, and a line that has one is not read (`half_pair_not_read`).
-/

namespace AdmissionWatch.Audit

open Json.Raw

/-- The fields of a record that are records themselves, and the names of their fields. -/
def Record.nested : List (String × List (List String)) :=
  [("user", User.fieldNames), ("objectRef", ObjectRef.fieldNames), ("responseStatus", Response.fieldNames)]

/-- A member of a record in another layout: the members of its object are rearranged, if that is a
record itself. -/
inductive MemberRelaid : List Char × Json.Raw → List Char × Json.Raw → Prop
  | same (m : List Char × Json.Raw) : MemberRelaid m m
  | nested {key s : List Char} {names : List (List String)} {ms ms' : List (List Char × Json.Raw)} :
      unescape key = some s → (String.ofList s, names) ∈ Record.nested → Rearranged names ms ms' →
      MemberRelaid (key, .obj ms) (key, .obj ms')

/-- The members of a record in another layout. -/
def Relaid (ms ms' : List (List Char × Json.Raw)) : Prop :=
  ∃ middle, List.Forall₂ MemberRelaid ms middle ∧ Rearranged Record.fieldNames middle ms'

/-- Whether the keys of a record denote characters, and those of the objects in it that are records
themselves. -/
structure Spelled (ms : List (List Char × Json.Raw)) : Prop where
  keys : KeysRead ms
  nested : ∀ m ∈ ms, ∀ s names inner, unescape m.1 = some s → (String.ofList s, names) ∈ Record.nested →
    m.2 = .obj inner → KeysRead inner

variable {ms ms' : List (List Char × Json.Raw)} {m m' : List Char × Json.Raw} {raw raw' : Json.Raw}
  {line line' : String} {a : Record}

theorem User.ofRaw?_rearranged (h : Rearranged User.fieldNames ms ms') (hkeys : KeysRead ms') :
    User.ofRaw? (.obj ms') = User.ofRaw? (.obj ms) := by
  unfold User.ofRaw?
  rw [h.record?_eq hkeys]

theorem ObjectRef.ofRaw?_rearranged (h : Rearranged ObjectRef.fieldNames ms ms') (hkeys : KeysRead ms') :
    ObjectRef.ofRaw? (.obj ms') = ObjectRef.ofRaw? (.obj ms) := by
  unfold ObjectRef.ofRaw?
  rw [h.record?_eq hkeys]

theorem Response.ofRaw?_rearranged (h : Rearranged Response.fieldNames ms ms') (hkeys : KeysRead ms') :
    Response.ofRaw? (.obj ms') = Response.ofRaw? (.obj ms) := by
  unfold Response.ofRaw?
  rw [h.record?_eq hkeys]

/-- Values that are read alike as the field of a record at a place. -/
def ReadsAlike (i : Nat) (raw raw' : Json.Raw) : Prop :=
  match i with
  | 7 => User.ofRaw? raw' = User.ofRaw? raw
  | 10 => ObjectRef.ofRaw? raw' = ObjectRef.ofRaw? raw
  | 11 => Response.ofRaw? raw' = Response.ofRaw? raw
  | _ => raw' = raw

theorem ReadsAlike.refl (i : Nat) (raw : Json.Raw) : ReadsAlike i raw raw := by
  unfold ReadsAlike
  split <;> rfl

/-- The places of the fields that are records themselves. -/
theorem place_of_nested {s : List Char} {names : List (List String)} {i : Nat}
    (hkey : unescape m.1 = some s) (hname : (String.ofList s, names) ∈ Record.nested)
    (hi : fieldOf? Record.fieldNames m = some i) :
    (i = 7 ∧ names = User.fieldNames) ∨ (i = 10 ∧ names = ObjectRef.fieldNames) ∨
      (i = 11 ∧ names = Response.fieldNames) := by
  unfold fieldOf? at hi
  rw [hkey, Option.bind_some] at hi
  simp only [Record.nested, List.mem_cons, List.not_mem_nil, or_false, Prod.mk.injEq] at hname
  rcases hname with ⟨hs, rfl⟩ | ⟨hs, rfl⟩ | ⟨hs, rfl⟩
  · rw [hs] at hi
    exact .inl ⟨(Option.some.inj hi).symm, rfl⟩
  · rw [hs] at hi
    exact .inr (.inl ⟨(Option.some.inj hi).symm, rfl⟩)
  · rw [hs] at hi
    exact .inr (.inr ⟨(Option.some.inj hi).symm, rfl⟩)

theorem MemberRelaid.recast (h : MemberRelaid m m')
    (hkeys : ∀ s names inner, unescape m'.1 = some s → (String.ofList s, names) ∈ Record.nested →
      m'.2 = .obj inner → KeysRead inner) : Recast ReadsAlike Record.fieldNames m m' := by
  cases h with
  | same => exact ⟨rfl, fun i _ => .refl i _⟩
  | nested hkey hname hms =>
    have hinner := hkeys _ _ _ hkey hname rfl
    refine ⟨rfl, fun i hi => ?_⟩
    rcases place_of_nested hkey hname hi with ⟨rfl, rfl⟩ | ⟨rfl, rfl⟩ | ⟨rfl, rfl⟩
    · exact User.ofRaw?_rearranged hms hinner
    · exact ObjectRef.ofRaw?_rearranged hms hinner
    · exact Response.ofRaw?_rearranged hms hinner

theorem Record.ofRaw?_alike {found found' : Found} (h : Alike ReadsAlike fieldNames found found')
    (hfound : record? fieldNames raw = some found) (hfound' : record? fieldNames raw' = some found') :
    ofRaw? raw' = ofRaw? raw := by
  have hsame : ∀ {α : Type} (read? : Json.Raw → Option α) (raw raw' : Json.Raw), raw' = raw →
      read? raw' = read? raw :=
    fun read? _ _ heq => congrArg read? heq
  unfold ofRaw?
  rw [hfound, hfound', Option.bind_eq_bind, Option.bind_eq_bind, Option.bind_some, Option.bind_some]
  rw [h.fieldOr (i := 0) (hsame _), h.fieldOr (i := 1) (hsame _), h.fieldOr (i := 2) (hsame _),
    h.fieldOr (i := 3) (hsame _), h.fieldOr (i := 4) (hsame _), h.fieldOr (i := 5) (hsame _),
    h.fieldOr (i := 6) (hsame _), h.fieldOr (i := 7) (fun _ _ h => h), h.fieldOr (i := 8) (hsame _),
    h.fieldOr (i := 9) (hsame _), h.fieldOr (i := 10) (fun _ _ h => h), h.fieldOr (i := 11) (fun _ _ h => h),
    h.fieldOr (i := 12) (hsame _), h.fieldOr (i := 13) (hsame _), h.fieldOr (i := 14) (hsame _)]

theorem Relaid.ofRaw? (h : Relaid ms ms') (hspelled : Spelled ms') (ha : Record.ofRaw? (.obj ms) = some a) :
    Record.ofRaw? (.obj ms') = some a := by
  obtain ⟨middle, hmembers, hrearranged⟩ := h
  have hmiddle : ∀ m' ∈ middle, m' ∈ ms' := by
    obtain ⟨extra, hperm, -⟩ := hrearranged
    exact fun m' hm' => hperm.mem_iff.mpr (List.mem_append_left _ hm')
  have hrecast : List.Forall₂ (Recast ReadsAlike Record.fieldNames) ms middle := by
    have hboth := (List.forall₂_and_left middle ms).mpr ⟨hmiddle, hmembers.flip⟩
    exact hboth.flip.imp fun m m' hm => hm.2.recast (hspelled.nested m' hm.1)
  have ⟨found, hfound, _⟩ := Option.bind_eq_some_iff.mp ha
  obtain ⟨found', hfound', halike⟩ := record?_recast hrecast hfound
  have hsame : record? Record.fieldNames (.obj ms') = some found' :=
    (hrearranged.record?_eq hspelled.keys).trans hfound'
  rw [Record.ofRaw?_alike halike hfound hsame, ha]

/-- A record is read only where all these keys denote characters. -/
theorem Record.spelled_of_ofRaw? (h : Record.ofRaw? (.obj ms) = some a) : Spelled ms := by
  refine ⟨keysRead_of_bind h, fun m hm s names inner hkey hname hinner => ?_⟩
  obtain ⟨found, hfound, h⟩ := Option.bind_eq_some_iff.mp h
  iterate 7 obtain ⟨_, -, h⟩ := Option.bind_eq_some_iff.mp h
  obtain ⟨user, huser, h⟩ := Option.bind_eq_some_iff.mp h
  iterate 2 obtain ⟨_, -, h⟩ := Option.bind_eq_some_iff.mp h
  obtain ⟨objectRef, hobject, h⟩ := Option.bind_eq_some_iff.mp h
  obtain ⟨response, hresponse, -⟩ := Option.bind_eq_some_iff.mp h
  obtain ⟨i, hi⟩ : ∃ i, fieldOf? Record.fieldNames m = some i := by
    unfold fieldOf?
    simp only [Record.nested, List.mem_cons, List.not_mem_nil, or_false, Prod.mk.injEq] at hname
    rcases hname with ⟨hs, -⟩ | ⟨hs, -⟩ | ⟨hs, -⟩ <;> rw [hkey, Option.bind_some, hs] <;> exact ⟨_, rfl⟩
  have hvalue := getD_of_mem hfound hm hi
  rw [hinner] at hvalue
  rcases place_of_nested hkey hname hi with ⟨rfl, -⟩ | ⟨rfl, -⟩ | ⟨rfl, -⟩
  · rw [fieldOr, hvalue] at huser
    exact keysRead_of_bind huser
  · rw [fieldOr, hvalue] at hobject
    exact keysRead_of_bind hobject
  · rw [fieldOr, hvalue] at hresponse
    exact keysRead_of_bind hresponse

theorem Record.read_eq_ok_iff : Record.read line = .ok a ↔
    ∃ raw, TextOf raw line.toList ∧ Record.ofRaw? raw = some a := by
  unfold Record.read
  simp only [← read?_eq_some_iff, ← Option.bind_eq_some_iff]
  cases (Json.Raw.read? line.toList).bind ofRaw? <;> simp

/-- In whatever layout a line is written, the same record is read from it if all keys denote characters,
and so the same kind of violation is found and the same event is made of it. Nothing is read from it if
they do not. -/
theorem lines_read_alike (hread : Record.read line = .ok a) (hopen : (skip line.toList).head? = some '\x7b') :
    (∃ ms, TextOf (.obj ms) line.toList) ∧
    ∀ ms ms' line', TextOf (.obj ms) line.toList → Relaid ms ms' → TextOf (.obj ms') line'.toList →
      (Spelled ms' →
        Record.read line' = .ok a ∧
        (Record.read line').map Detection.audit? = (Record.read line).map Detection.audit? ∧
        ∀ now kind source, (Record.read line').map (Event.ofAudit now · kind source) =
          (Record.read line).map (Event.ofAudit now · kind source)) ∧
      (¬Spelled ms' → ∃ f, Record.read line' = .error f) := by
  obtain ⟨raw, htext, hraw⟩ := Record.read_eq_ok_iff.mp hread
  obtain ⟨ms, rfl⟩ := htext.eq_obj hopen
  refine ⟨⟨ms, htext⟩, fun ms' ms'' line' htext' hrelaid hline' => ⟨fun hspelled => ?_, fun hnot => ?_⟩⟩
  · obtain rfl : ms = ms' := Json.Raw.obj.inj (htext.unique htext')
    have hread' : Record.read line' = .ok a := Record.read_eq_ok_iff.mpr ⟨_, hline', hrelaid.ofRaw? hspelled hraw⟩
    exact ⟨hread', by rw [hread', hread], fun now kind source => by rw [hread', hread]⟩
  · cases hread' : Record.read line' with
    | error f => exact ⟨f, rfl⟩
    | ok a' =>
      obtain ⟨raw', hline'', hraw'⟩ := Record.read_eq_ok_iff.mp hread'
      obtain rfl := hline'.unique hline''
      exact absurd (Record.spelled_of_ofRaw? hraw') hnot

/-- The keys of what is written denote characters. -/
theorem keysRead_ofMembers (ms : List (String × Json)) : KeysRead (ofMembers ms) := by
  induction ms with
  | nil => exact List.forall_mem_nil _
  | cons m ms ih =>
    refine List.forall_mem_cons.mpr ⟨?_, ih⟩
    rw [unescape_escaped]
    rfl

theorem spelled_ofMembers (ms : List (String × Json)) : Spelled (ofMembers ms) := by
  refine ⟨keysRead_ofMembers ms, fun m hm s names inner _ _ hinner => ?_⟩
  obtain ⟨v, hv⟩ : ∃ v, m.2 = ofJson v := by
    induction ms with
    | nil => cases hm
    | cons m' ms ih =>
      rcases List.mem_cons.mp hm with rfl | hm
      · exact ⟨m'.2, rfl⟩
      · exact ih hm
  rw [hv] at hinner
  cases v with
  | obj ms' => exact Json.Raw.obj.inj hinner ▸ keysRead_ofMembers ms'
  | _ => cases hinner

/-- Two members change places, and unknown ones stand before them and in the user. -/
theorem lines_read_alike_reordered :
    let line := Json.text (.obj [("auditID", .str "a"), ("user", .obj [("uid", .str "u")])])
    let line' := Json.text (.obj [("x", .int (-5)), ("x", .arr [.arr [.obj []]]),
      ("user", .obj [("key", .null), ("uid", .str "u")]), ("auditID", .str "a")])
    Record.read line = .ok { auditId := "a", user := { uid := "u" } } ∧
      Record.read line' = .ok { auditId := "a", user := { uid := "u" } } := by
  let auditId : String × Json := ("auditID", .str "a")
  let user : String × Json := ("user", .obj [("uid", .str "u")])
  let user' : String × Json := ("user", .obj [("key", .null), ("uid", .str "u")])
  let nested : String × Json := ("x", .arr [.arr [.obj []]])
  let number : String × Json := ("x", .int (-5))
  have hextra : ∀ {key : String} {names : List (List String)} (v : Json), (∀ ns ∈ names, key ∉ ns) →
      IsExtra names (escaped key.toList, ofJson v) :=
    fun v h key' hkey' => by rwa [← Option.some.inj ((unescape_escaped _).symm.trans hkey'), String.ofList_toList]
  have huser : Rearranged User.fieldNames (ofMembers [("uid", .str "u")])
      (ofMembers [("key", .null), ("uid", .str "u")]) :=
    ⟨ofMembers [("key", .null)], .swap _ _ _, List.forall_mem_singleton.mpr (hextra _ (by decide))⟩
  have hmembers : List.Forall₂ MemberRelaid (ofMembers [auditId, user]) (ofMembers [auditId, user']) :=
    .cons (.same _) (.cons (.nested (unescape_escaped _) (.head _) huser) .nil)
  have hrecord : Rearranged Record.fieldNames (ofMembers [auditId, user'])
      (ofMembers [number, nested, user', auditId]) :=
    ⟨ofMembers [nested, number], List.reverse_perm (ofMembers [auditId, user', nested, number]),
      List.forall_mem_cons.mpr ⟨hextra _ (by decide), List.forall_mem_singleton.mpr (hextra _ (by decide))⟩⟩
  have hline : ∀ m ∈ [auditId, user], Json.Plain 1 m.2 := by
    simp only [List.forall_mem_cons]
    exact ⟨.str _, .obj (List.pairwise_singleton _ _) (List.forall_mem_singleton.mpr (.str _)),
      List.forall_mem_nil _⟩
  have hline' : ∀ m ∈ [number, nested, user', auditId], Json.Plain 3 m.2 := by
    simp only [List.forall_mem_cons]
    refine ⟨.int (by decide) (by decide), .arr ?_, .obj (by decide) ?_, .str _, List.forall_mem_nil _⟩
    · exact List.forall_mem_singleton.mpr (.arr (List.forall_mem_singleton.mpr (.obj .nil (List.forall_mem_nil _))))
    · exact List.forall_mem_cons.mpr ⟨.null, List.forall_mem_singleton.mpr (.str _)⟩
  have htext := textOf_text fun m hm => legible_of_plain (hline m hm)
  have htext' := textOf_text fun m hm => legible_of_plain (hline' m hm)
  have hread : Record.read (Json.text (.obj [auditId, user])) = .ok { auditId := "a", user := { uid := "u" } } :=
    Record.read_eq_ok_iff.mpr ⟨_, htext, by decide +kernel⟩
  exact ⟨hread, (((lines_read_alike hread (by decide +kernel)).2 _ _ _ htext ⟨_, hmembers, hrecord⟩ htext').1
    (spelled_ofMembers _)).1⟩

/-- Half a surrogate pair in a key keeps a line from being read, whatever the other keys are. -/
theorem half_pair_not_read :
    ¬∀ (line line' : String) (a : Record) (ms ms' : List (List Char × Json.Raw)), Record.read line = .ok a →
      TextOf (.obj ms) line.toList → Relaid ms ms' → TextOf (.obj ms') line'.toList →
      Record.read line' = .ok a := by
  intro hall
  let auditId : List Char × Json.Raw := ("auditID".toList, .str ['x'])
  let half : List Char × Json.Raw := ("\\ud800".toList, .null)
  have hline : TextOf (.obj [auditId]) "\x7b\"auditID\":\"x\"\x7d".toList := by
    refine read?_eq_some_iff.mp ?_
    simp only [auditId, String.reduceToList]
    cbv
  have hline' : TextOf (.obj [auditId, half]) "\x7b\"auditID\":\"x\",\"\\ud800\":null\x7d".toList := by
    refine read?_eq_some_iff.mp ?_
    simp only [auditId, half, String.reduceToList]
    cbv
  have hread : Record.read "\x7b\"auditID\":\"x\"\x7d" = .ok { auditId := "x" } := by decide +kernel
  have hextra : IsExtra Record.fieldNames half := by
    intro key hkey
    have hnone : unescape half.1 = none := by decide +kernel
    rw [hnone] at hkey
    cases hkey
  have hrelaid : Relaid [auditId] [auditId, half] :=
    ⟨_, .cons (.same _) .nil, [half], .refl _, List.forall_mem_singleton.mpr hextra⟩
  have hread' := hall _ _ _ _ _ hread hline hrelaid hline'
  have hnot : Record.read "\x7b\"auditID\":\"x\",\"\\ud800\":null\x7d" ≠ .ok { auditId := "x" } := by decide +kernel
  exact hnot hread'

end AdmissionWatch.Audit
