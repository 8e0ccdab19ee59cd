import AdmissionWatch.Audit.Wire
import AdmissionWatch.Event.Wire
import AdmissionWatch.Violation.Wire
import AdmissionWatch.Proofs.Json.Fields
import AdmissionWatch.Proofs.Time.Reading

/-!
# What is written is read back

The text of an event, of a payload and of an audit record is read back as the same value
(`texts_read_back`), with or without the fields that are left out, and whatever characters are in its
strings and keys. The conditions are those of the types of numbers and maps, the depth to which kept
values may nest, and the years that four digits write.
-/

namespace AdmissionWatch

open Json Json.Raw

theorem ChangeKind.ofLabel?_label (k : ChangeKind) : ofLabel? k.label = some k := by
  cases k <;> decide

theorem word?_label (k : ChangeKind) : word? ChangeKind.ofLabel? (ofJson (.str k.label)) = some k := by
  rw [word?_str, k.ofLabel?_label]

theorem Category.ofLabel?_label (c : Category) : ofLabel? c.label = some c := by
  cases c <;> decide

/-! ## Fields that may be left out -/

/-- A text that is left out when it is empty. -/
theorem fieldOr_text (s : String) {found : Found} {i : Nat}
    (h : found.getD i none = (if s = "" then none else some (.str s) : Option Json).map ofJson) :
    fieldOr found i "" string? = some s := by
  unfold fieldOr
  rw [h]
  by_cases hs : s = ""
  · simp [hs]
  · simp [hs, string?_str]

theorem legible_text (s : String) : ∀ v, (if s = "" then none else some (.str s) : Option Json) = some v →
    Legible v := by
  intro v h
  split at h
  · cases h
  · cases h
    exact .str s

/-- A kind that is left out when there is none. -/
theorem fieldOr_kind (c? : Option Category) {found : Found} {i : Nat}
    (h : found.getD i none = (c?.map fun c => .str c.label : Option Json).map ofJson) :
    fieldOr found i none (nullable? (word? Category.ofLabel?)) = some c? := by
  unfold fieldOr
  rw [h]
  cases c? with
  | none => rfl
  | some c =>
    show (word? Category.ofLabel? (ofJson (.str c.label))).map some = some (some c)
    rw [word?_str, Category.ofLabel?_label]
    rfl

theorem legible_kind (c? : Option Category) : ∀ v, (c?.map fun c => .str c.label : Option Json) = some v →
    Legible v := by
  intro v h
  obtain ⟨c, -, rfl⟩ := Option.map_eq_some_iff.mp h
  exact .str _

/-! ## Events -/

/-- Whether the numbers of an event are in their ranges, and the values in its data and metadata too, at
most one level less deep than a text may nest. -/
structure Event.Readable (e : Event) : Prop where
  version : e.version < 0x100000000
  timestamp : -0x8000000000000000 ≤ e.timestamp ∧ e.timestamp ≤ 0x7FFFFFFFFFFFFFFF
  data : Plain (maxDepth - 1) (.obj e.data)
  metadata : Plain (maxDepth - 1) (.obj e.metadata)

theorem Event.ofRaw?_fields {e : Event} (h : e.Readable) : ofRaw? (.obj (ofMembers (present e.fields))) = some e := by
  obtain ⟨hversion, ⟨hleast, hmost⟩, hdata, hmetadata⟩ := h
  have hfound : record? fieldNames (.obj (ofMembers (present e.fields))) = some (foundOf e.fields) :=
    record?_present rfl (by decide)
  have hversion : intIn? 0 0xFFFFFFFF (ofJson (.int e.version)) = some (e.version : Int) :=
    intIn?_int (by omega) (by omega) (by omega) (by omega)
  have htimestamp : int64? (ofJson (.int e.timestamp)) = some e.timestamp :=
    intIn?_int hleast hmost (by omega) (by omega)
  unfold ofRaw?
  refine Option.bind_eq_some_iff.mpr ⟨_, hfound, ?_⟩
  refine field?_bind rfl hversion ?_
  refine field?_bind rfl htimestamp ?_
  refine Option.bind_eq_some_iff.mpr ⟨_, fieldOr_text e.eventTime rfl, ?_⟩
  refine field?_bind rfl (word?_label _) ?_
  iterate 4 refine field?_bind rfl (string?_str _) ?_
  refine fieldOr_bind rfl (fieldsAt?_obj hdata) ?_
  refine fieldOr_bind rfl (fieldsAt?_obj hmetadata) ?_
  refine fieldOr_bind rfl (string?_str _) ?_
  iterate 2 refine fieldOr_bind rfl (bool?_bool _) ?_
  refine Option.bind_eq_some_iff.mpr ⟨_, fieldOr_kind e.category rfl, ?_⟩
  rfl

theorem Event.read?_text {e : Event} (h : e.Readable) : read? e.text = some e := by
  have hlegible : ∀ f ∈ e.fields, ∀ v ∈ f.2, Legible v := by
    simp only [fields, List.forall_mem_cons, Option.mem_def, Option.some.injEq, forall_eq']
    exact ⟨.int _, .int _, legible_text _, .str _, .str _, .str _, .str _, .str _, legible_of_plain h.data,
      legible_of_plain h.metadata, .str _, .bool _, .bool _, legible_kind _, by simp⟩
  unfold read? text
  rw [read?_present hlegible]
  exact ofRaw?_fields h

/-! ## Payloads -/

/-- Whether the numbers of a payload and the values in its data and metadata are in their ranges, as for an
event, and its policies are maps. -/
structure Violation.Readable (v : Violation) : Prop where
  timestamp : -0x8000000000000000 ≤ v.timestamp ∧ v.timestamp ≤ 0x7FFFFFFFFFFFFFFF
  data : Plain (maxDepth - 1) (.obj v.data)
  metadata : Plain (maxDepth - 1) (.obj v.metadata)
  policies : Dict.Sorted v.policies ∧ ∀ p ∈ v.policies, Dict.Sorted p.2

theorem Violation.dictOf?_policies {policies : PolicyMap} (hpolicies : Dict.Sorted policies)
    (hrules : ∀ p ∈ policies, Dict.Sorted p.2) :
    dictOf? (dictOf? string?) (ofJson (policiesJson policies)) = some policies := by
  have htexts : ∀ p ∈ policies, dictOf? string? (ofJson (.ofTexts p.2)) = some p.2 :=
    fun p hp => dictOf?_ofTexts (hrules p hp)
  exact dictOf?_map hpolicies htexts

theorem Violation.legible_policies (policies : PolicyMap) : Legible (policiesJson policies) := by
  refine .obj fun m hm => ?_
  obtain ⟨p, -, rfl⟩ := List.mem_map.mp hm
  exact .ofTexts p.2

theorem Violation.ofRaw?_fields {v : Violation} (h : v.Readable) :
    ofRaw? (.obj (ofMembers (present v.fields))) = some v := by
  obtain ⟨⟨hleast, hmost⟩, hdata, hmetadata, hpolicies, hrules⟩ := h
  have hfound : record? fieldNames (.obj (ofMembers (present v.fields))) = some (foundOf v.fields) :=
    record?_present rfl (by decide)
  have htimestamp : int64? (ofJson (.int v.timestamp)) = some v.timestamp :=
    intIn?_int hleast hmost (by omega) (by omega)
  unfold ofRaw?
  refine Option.bind_eq_some_iff.mpr ⟨_, hfound, ?_⟩
  refine field?_bind rfl (word?_label _) ?_
  iterate 4 refine field?_bind rfl (string?_str _) ?_
  refine field?_bind rfl htimestamp ?_
  refine field?_bind rfl (fieldsAt?_obj hdata) ?_
  refine field?_bind rfl (fieldsAt?_obj hmetadata) ?_
  refine field?_bind rfl (dictOf?_policies hpolicies hrules) ?_
  refine Option.bind_eq_some_iff.mpr ⟨_, fieldOr_text v.policyResult rfl, ?_⟩
  refine field?_bind rfl (string?_str _) ?_
  iterate 2 refine field?_bind rfl (bool?_bool _) ?_
  refine Option.bind_eq_some_iff.mpr ⟨_, fieldOr_text v.eventTime rfl, ?_⟩
  rfl

theorem Violation.read?_text {v : Violation} (h : v.Readable) : read? v.text = some v := by
  have hlegible : ∀ f ∈ v.fields, ∀ w ∈ f.2, Legible w := by
    simp only [fields, List.forall_mem_cons, Option.mem_def, Option.some.injEq, forall_eq']
    exact ⟨.str _, .str _, .str _, .str _, .str _, .int _, legible_of_plain h.data, legible_of_plain h.metadata,
      legible_policies _, legible_text _, .str _, .bool _, .bool _, legible_text _, by simp⟩
  unfold read? text
  rw [read?_present hlegible]
  exact ofRaw?_fields h

/-! ## Audit records -/

namespace Audit

/-- Whether the numbers of an audit record are in their ranges, its annotations are a map, and its times
are shown by clocks in the years that four digits write. -/
structure Record.Readable (r : Record) : Prop where
  code : -0x80000000 ≤ r.response.code ∧ r.response.code ≤ 0x7FFFFFFF
  annotations : Dict.Sorted r.annotations
  received : ∀ t ∈ r.received, t.Proper ∧ t.HasPlainYear
  staged : ∀ t ∈ r.staged, t.Proper ∧ t.HasPlainYear

theorem instant?_json {t? : Option Time.Instant} (h : ∀ t ∈ t?, t.Proper ∧ t.HasPlainYear) :
    nullable? instant? (ofJson (instantJson t?)) = some t? := by
  cases t? with
  | none => rfl
  | some t =>
    obtain ⟨hproper, hyear⟩ := h t rfl
    show (instant? (ofJson (.str t.preciseText))).map some = some (some t)
    unfold instant?
    rw [string?_str, Option.bind_some, Time.readRelaxed?_preciseText hproper hyear]
    rfl

theorem legible_instant (t? : Option Time.Instant) : Legible (instantJson t?) := by
  cases t? with
  | none => exact .null
  | some t => exact .str _

theorem legible_strings (ss : List String) : Legible (.arr (ss.map .str)) := by
  refine .arr fun v hv => ?_
  obtain ⟨s, -, rfl⟩ := List.mem_map.mp hv
  exact .str s

theorem listOf?_strings (ss : List String) : listOf? string? (ofJson (.arr (ss.map .str))) = some ss :=
  listOf?_map fun s _ => string?_str s

theorem User.ofRaw?_fields (u : User) : ofRaw? (ofJson (.obj (present u.fields))) = some u := by
  have hfound : record? fieldNames (ofJson (.obj (present u.fields))) = some (foundOf u.fields) :=
    record?_present rfl (by decide)
  unfold ofRaw?
  refine Option.bind_eq_some_iff.mpr ⟨_, hfound, ?_⟩
  iterate 2 refine fieldOr_bind rfl (string?_str _) ?_
  refine fieldOr_bind rfl (listOf?_strings _) ?_
  rfl

theorem ObjectRef.ofRaw?_fields (o : ObjectRef) : ofRaw? (ofJson (.obj (present o.fields))) = some o := by
  have hfound : record? fieldNames (ofJson (.obj (present o.fields))) = some (foundOf o.fields) :=
    record?_present rfl (by decide)
  unfold ofRaw?
  refine Option.bind_eq_some_iff.mpr ⟨_, hfound, ?_⟩
  iterate 8 refine fieldOr_bind rfl (string?_str _) ?_
  rfl

theorem Response.ofRaw?_fields {a : Response} (hleast : -0x80000000 ≤ a.code) (hmost : a.code ≤ 0x7FFFFFFF) :
    ofRaw? (ofJson (.obj (present a.fields))) = some a := by
  have hfound : record? fieldNames (ofJson (.obj (present a.fields))) = some (foundOf a.fields) :=
    record?_present rfl (by decide)
  have hcode : int32? (ofJson (.int a.code)) = some a.code := intIn?_int hleast hmost (by omega) (by omega)
  unfold ofRaw?
  refine Option.bind_eq_some_iff.mpr ⟨_, hfound, ?_⟩
  refine fieldOr_bind rfl hcode ?_
  iterate 3 refine fieldOr_bind rfl (string?_str _) ?_
  rfl

theorem Record.ofRaw?_fields {r : Record} (h : r.Readable) :
    ofRaw? (.obj (ofMembers (present (r.fields .obj)))) = some r := by
  obtain ⟨⟨hleast, hmost⟩, hannotations, hreceived, hstaged⟩ := h
  have hfound : record? fieldNames (.obj (ofMembers (present (r.fields .obj)))) = some (foundOf (r.fields .obj)) :=
    record?_present rfl (by decide)
  unfold ofRaw?
  refine Option.bind_eq_some_iff.mpr ⟨_, hfound, ?_⟩
  iterate 7 refine fieldOr_bind rfl (string?_str _) ?_
  refine fieldOr_bind rfl (User.ofRaw?_fields _) ?_
  refine fieldOr_bind rfl (listOf?_strings _) ?_
  refine fieldOr_bind rfl (string?_str _) ?_
  refine fieldOr_bind rfl (ObjectRef.ofRaw?_fields _) ?_
  refine fieldOr_bind rfl (Response.ofRaw?_fields hleast hmost) ?_
  refine fieldOr_bind rfl (dictOf?_ofTexts hannotations) ?_
  refine fieldOr_bind rfl (instant?_json hreceived) ?_
  refine fieldOr_bind rfl (instant?_json hstaged) ?_
  rfl

theorem User.legible (u : User) : Legible (.obj (present u.fields)) := by
  refine .obj (forall_mem_present ?_)
  simp only [fields, List.forall_mem_cons, Option.mem_def, Option.some.injEq, forall_eq']
  exact ⟨.str _, .str _, legible_strings _, by simp⟩

theorem ObjectRef.legible (o : ObjectRef) : Legible (.obj (present o.fields)) := by
  refine .obj (forall_mem_present ?_)
  simp only [fields, List.forall_mem_cons, Option.mem_def, Option.some.injEq, forall_eq']
  exact ⟨.str _, .str _, .str _, .str _, .str _, .str _, .str _, .str _, by simp⟩

theorem Response.legible (a : Response) : Legible (.obj (present a.fields)) := by
  refine .obj (forall_mem_present ?_)
  simp only [fields, List.forall_mem_cons, Option.mem_def, Option.some.injEq, forall_eq']
  exact ⟨.int _, .str _, .str _, .str _, by simp⟩

theorem Record.read_text {r : Record} (h : r.Readable) : read r.text = .ok r := by
  have hlegible : ∀ f ∈ r.fields .obj, ∀ v ∈ f.2, Legible v := by
    simp only [fields, List.forall_mem_cons, Option.mem_def, Option.some.injEq, forall_eq']
    exact ⟨.str _, .str _, .str _, .str _, .str _, .str _, .str _, r.user.legible, legible_strings _, .str _,
      r.objectRef.legible, r.response.legible, .ofTexts _, legible_instant _, legible_instant _, by simp⟩
  unfold read text
  rw [read?_present hlegible, Option.bind_some, ofRaw?_fields h]

end Audit

/-! ## The three together -/

/-- An event, a payload and an audit record are each what is read from their text. -/
theorem texts_read_back :
    (∀ e : Event, e.Readable → Event.read? e.text = some e) ∧
      (∀ v : Violation, v.Readable → Violation.read? v.text = some v) ∧
      ∀ r : Audit.Record, r.Readable → Audit.Record.read r.text = .ok r :=
  ⟨fun _ => Event.read?_text, fun _ => Violation.read?_text, fun _ => Audit.Record.read_text⟩

/-- Quotes, line breaks and control characters in strings and in keys, numbers at both ends of their range,
fields that are left out, a kind of violation, milliseconds, and nanoseconds in a leap second. -/
theorem texts_read_back_escaped :
    let e : Event := { version := 1, timestamp := -1, change := .deleted, name := "a\"b\\\n\x01é",
                       data := [("", .arr [.int (-0x8000000000000000), .obj [("\t", .null)]]),
                                ("n", .int 0xFFFFFFFFFFFFFFFF)],
                       category := some .validatingPolicy }
    let v : Violation := { change := .modified, timestamp := 1714557600, metadata := [("policyResult", .str "fail")],
                           policies := [("p", [("\"r\"", "\x08"), ("s", "")]), ("q", [])], blocked := true }
    let r : Audit.Record := { auditId := "4f5e\r", user := { groups := ["a", "\x7f"] }, response := { code := -1 },
                              annotations := [("k\x0c", "/"), ("l", "")], received := some ⟨1714557600, 250000000⟩,
                              staged := some ⟨1483228799, 1000000001⟩ }
    Event.read? e.text = some e ∧ Violation.read? v.text = some v ∧ Audit.Record.read r.text = .ok r := by
  intro e v r
  have he : e.Readable := by
    refine ⟨by decide, by decide, .obj (by decide) ?_, .obj .nil (List.forall_mem_nil _)⟩
    simp only [e, List.forall_mem_cons]
    refine ⟨.arr ?_, .int (by decide) (by decide), List.forall_mem_nil _⟩
    simp only [List.forall_mem_cons]
    exact ⟨.int (by decide) (by decide), .obj (by decide) (List.forall_mem_singleton.mpr .null),
      List.forall_mem_nil _⟩
  have hv : v.Readable :=
    ⟨by decide, .obj .nil (List.forall_mem_nil _), .obj (by decide) (List.forall_mem_singleton.mpr (.str _)),
      by decide, by decide⟩
  have hr : r.Readable := by
    refine ⟨by decide, by decide, ?_, ?_⟩
    · rintro t ⟨⟩
      exact ⟨.inl (by decide), by decide, by decide⟩
    · rintro t ⟨⟩
      exact ⟨.inr (by decide), by decide, by decide⟩
  exact ⟨texts_read_back.1 e he, texts_read_back.2.1 v hv, texts_read_back.2.2 r hr⟩

end AdmissionWatch
