import AdmissionWatch.Event.OfObject
import AdmissionWatch.Proofs.Dict

/-!
# What the event of a policy event says

An event object of the Kubernetes API that has metadata is always brought into an event
(`exists_ofPolicyEvent`), first as an object (`exists_ofObject`). Whatever else is in the object, under
whatever keys, the event says what `TellsOf` lists: its identity is that of the object that failed, its
payload is the object without managed fields and with the name of the policy, and its metadata say that
the request passed.
-/

namespace AdmissionWatch

namespace Json

/-- A path is looked up past a member that it does not begin with. -/
theorem textAt_insert {key first : String} (h : key ≠ first) (path : List String) (value : Json) (fields : Fields) :
    (obj (fields.insert key value)).textAt (first :: path) = (obj fields).textAt (first :: path) := by
  simp [textAt, at?, member?, Dict.get?_insert, h]

/-- There is only a text at a path that begins with an object. -/
theorem member?_of_textAt {v : Json} {first second : String} (h : v.textAt [first, second] ≠ "") :
    ∃ inner, v.member? first = some (.obj inner) := by
  unfold textAt at h
  rw [at?] at h
  cases hfirst : v.member? first with
  | none =>
    rw [hfirst] at h
    exact absurd rfl h
  | some inner =>
    cases inner with
    | obj inner => exact ⟨inner, rfl⟩
    | _ =>
      rw [hfirst] at h
      exact absurd rfl h

theorem textAt_of_str {v : Json} {path : List String} {s : String} (h : v.at? path = some (.str s)) :
    v.textAt path = s := by
  unfold textAt
  rw [h]
  rfl

end Json

namespace Event

/-- What the event of a policy event says, by what is found in the object. -/
structure TellsOf (e : Event) (object : Json) (metadata : Fields) : Prop where
  namespaceName : e.namespaceName = object.textAt ["related", "namespace"]
  uid : e.uid = object.textAt ["related", "uid"]
  resourceType : e.resourceType = object.textAt ["related", "kind"]
  category : e.category = some .auditOnlyClusterPolicy
  outcome : (⟨e.blocked, e.success⟩ : Outcome) = .allowed
  policyResult : e.metadata.get? "policyResult" = some (.str "pass")
  policyName : e.data.get? "policyName" = some (.str (object.textAt ["involvedObject", "name"])) ∧
    e.metadata.get? "policyName" = some (.str (object.textAt ["involvedObject", "name"]))
  /-- The payload is otherwise the object. -/
  data : ∀ key, key ≠ "policyName" → key ≠ "metadata" → e.data.get? key = object.member? key
  /-- Its metadata lack the managed fields, and nothing else. -/
  unmanaged : ∃ kept : Fields, e.data.get? "metadata" = some (.obj kept) ∧
    ∀ key, kept.get? key = if key = "managedFields" then none else metadata.get? key

variable {now : Time.Instant} {object : Json} {metadata : Fields}

theorem exists_ofPolicyEvent (now : Time.Instant) (h : object.member? "metadata" = some (.obj metadata)) :
    ∃ e, ofPolicyEvent now object = .ok e ∧ e.TellsOf object metadata := by
  cases object with
  | obj fields =>
    have hmetadata : Dict.get? "metadata" fields = some (.obj metadata) := h
    unfold ofPolicyEvent ofObject
    simp only [hmetadata]
    refine ⟨_, rfl, ?_⟩
    -- The look-ups by path go into the object itself, since none of them begins with its metadata.
    have htext : ∀ first path, "metadata" ≠ first →
        (Json.obj (Dict.insert "metadata" (.obj (metadata.erase "managedFields")) fields)).textAt (first :: path) =
          (Json.obj fields).textAt (first :: path) := fun first path hne => Json.textAt_insert hne path _ fields
    refine ⟨htext _ _ (by decide), htext _ _ (by decide), htext _ _ (by decide), rfl, rfl, ?_, ⟨?_, ?_⟩, ?_, ?_⟩
    · simp [Dict.get?_insert]
    · simp [Dict.get?_insert, htext]
    · simp [Dict.get?_insert, htext]
    · intro key hname hmeta
      simp [Dict.get?_insert, Ne.symm hname, Ne.symm hmeta, Json.member?]
    · exact ⟨metadata.erase "managedFields", by simp [Dict.get?_insert],
        fun key => Dict.get?_erase metadata "managedFields" key⟩
  | _ => cases h

/-- An event object is brought in as an object first, whose time gives the second of the event if it can be
read. -/
theorem exists_ofObject {e : Event} (h : ofPolicyEvent now object = .ok e) :
    ∃ given, ofObject now .added object "Event" = .ok given ∧ e.eventTime = given.eventTime ∧
      e.timestamp = ((Time.readStrict? given.eventTime).map Time.Instant.seconds).getD given.timestamp ∧
      e.category = some .auditOnlyClusterPolicy ∧ ∃ rest,
        e.name = Category.auditOnlyClusterPolicy.stem ++ "-" ++ rest := by
  unfold ofPolicyEvent at h
  cases hobject : ofObject now .added object "Event" with
  | error f =>
    rw [hobject] at h
    cases h
  | ok given =>
    rw [hobject] at h
    obtain rfl := Except.ok.inj h
    exact ⟨given, rfl, rfl, rfl, rfl, _, by simp [String.append_assoc]; rfl⟩

end Event

end AdmissionWatch
