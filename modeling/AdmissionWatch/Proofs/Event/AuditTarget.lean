import AdmissionWatch.Detection
import AdmissionWatch.Event.OfAudit
import AdmissionWatch.Proofs.Audit.Target
import AdmissionWatch.Proofs.Dict

/-!
# The object that an event of an audit record is about

The event of an audit record says in several places which object it is about, and says the same in all
of them (`isAbout_ofAudit`). For a denial that is the object of the record, save for what the message
tells of it (`denial_event_target`). The name of the object is only changed by a phrase in full. Its
resource and its namespace are changed as soon as a phrase begins, so that any text after the words of
the denial with a word that ends in `resource` and a slash somewhere behind it changes them
(`denial_event_target_of_fragment`), unless the record has a uid of the object.
-/

namespace AdmissionWatch.Event

open Audit

/-- An event says everywhere that it is about this object. -/
structure IsAbout (e : Event) (c : Category) (auditId : String) (target : ObjectRef) : Prop where
  resourceType : e.resourceType = target.resource
  namespaceName : e.namespaceName = target.namespaceName
  name : e.name = s!"{c.stem}-{target.resource}-{target.name}-{auditId}"
  involvedKind : (Json.obj e.data).at? ["involvedObject", "kind"] = some (.str target.resource)
  involvedNamespace : (Json.obj e.data).at? ["involvedObject", "namespace"] = some (.str target.namespaceName)
  involvedName : (Json.obj e.data).at? ["involvedObject", "name"] = some (.str target.name)

variable {r : Record} {c : Category}

theorem isAbout_ofAudit (now : Time.Instant) (r : Record) (c : Category) (source : String) :
    IsAbout (ofAudit now r c source) c r.auditId (auditTarget r c) := by
  constructor
  · rfl
  · rfl
  · rfl
  all_goals simp [ofAudit, Dict.ofEntries, Dict.get?_insert, Json.at?, Json.object, Json.member?]

/-- The event of a denial is about the object of the record, with what the message tells of it. Without a
phrase in full the name is that of the record. All of it is, when the record has a uid of the object or
no phrase begins. Where one begins, the resource is what stands before the first slash, and the
namespace is what stands before a second one, if there is one. -/
theorem denial_event_target (hdenial : c.isAuditOnly = false) (now : Time.Instant) (source : String) :
    ∃ target : ObjectRef, IsAbout (ofAudit now r c source) c r.auditId target ∧
      ((∀ kind namespaceName name, ¬(phrase kind namespaceName name).toList <:+: r.message.toList) →
        target.name = r.objectRef.name) ∧
      (r.objectRef.uid ≠ "" ∨ (∀ kind rest, ¬Opens r.message kind rest) → target = r.objectRef) ∧
      (r.objectRef.uid = "" → ∀ kind rest, Opens r.message kind rest → target.resource = kind ∧
        ('/' ∉ rest.toList → target.namespaceName = r.objectRef.namespaceName) ∧
        ∀ namespaceName more, rest = namespaceName ++ "/" ++ more → '/' ∉ namespaceName.toList →
          target.namespaceName = namespaceName) := by
  have htarget : auditTarget r c = r.objectRef.named r.message := by
    rw [auditTarget, hdenial]
    rfl
  refine ⟨r.objectRef.named r.message, htarget ▸ isAbout_ofAudit now r c source, ObjectRef.name_named, ?_, ?_⟩
  · rintro (huid | hnone)
    · exact ObjectRef.named_of_uid huid
    · exact ObjectRef.named_of_not_opens hnone
  · intro huid kind rest hopens
    refine ⟨ObjectRef.resource_named hopens huid, fun hrest =>
      ObjectRef.namespaceName_named_of_no_slash hopens hrest huid, ?_⟩
    rintro namespaceName more rfl hnamespace
    exact ObjectRef.namespaceName_named hopens hnamespace huid

/-- A slash between two words. -/
theorem denial_event_target_of_slash :
    let r : Record :=
      { auditId := "a-1"
        objectRef := { resource := "pods", namespaceName := "web", name := "nginx" }
        response :=
          { code := 422
            message := "webhook nvpol.validate.kyverno.svc-fail " ++ "denied the request:" ++
              (" Policy limits failed: set " ++ "resource " ++ ("cpu" ++ "/" ++ "memory")) } }
    Detection.audit? r = some .namespacedValidatingPolicy ∧ ∀ now source,
      ∃ target : ObjectRef,
        IsAbout (ofAudit now r .namespacedValidatingPolicy source) .namespacedValidatingPolicy "a-1" target ∧
        target.resource = "cpu" ∧ target.namespaceName = "web" ∧ target.name = "nginx" := by
  intro r
  have hopens : Opens r.message "cpu" "memory" := .of_parts (by decide) (by decide) (by decide) _
  refine ⟨by decide +kernel, fun now source => ?_⟩
  obtain ⟨target, habout, hname, -, htold⟩ := @denial_event_target r .namespacedValidatingPolicy rfl now source
  obtain ⟨hresource, hnamespace, -⟩ := htold rfl "cpu" "memory" hopens
  exact ⟨target, habout, hresource, hnamespace (by decide), hname (not_occurs_phrase (by decide +kernel))⟩

/-- The detail of a failure, which is free text, changes what the event is about without any phrase in full. -/
theorem denial_event_target_of_fragment :
    let r : Record :=
      { auditId := "a-1"
        objectRef := { resource := "pods", namespaceName := "web", name := "nginx" }
        response :=
          { code := 400
            message := "webhook vpol.validate.kyverno.svc-fail denied the request: resource cpu/memory/gpu limits" } }
    Detection.audit? r = some .validatingPolicy ∧
      (∀ kind namespaceName name, ¬(phrase kind namespaceName name).toList <:+: r.message.toList) ∧
      ∀ now source, ¬IsAbout (ofAudit now r .validatingPolicy source) .validatingPolicy r.auditId r.objectRef ∧
        (ofAudit now r .validatingPolicy source).resourceType = "cpu" ∧
        (ofAudit now r .validatingPolicy source).namespaceName = "memory" ∧
        (ofAudit now r .validatingPolicy source).name = "vpol-violation-cpu-nginx-a-1" := by
  intro r
  have htarget : auditTarget r .validatingPolicy =
      { resource := "cpu", namespaceName := "memory", name := "nginx" } := by
    decide +kernel
  refine ⟨by decide +kernel, not_occurs_phrase (by decide +kernel), fun now source => ?_⟩
  obtain ⟨hresource, hnamespace, hname, -⟩ := htarget ▸ isAbout_ofAudit now r .validatingPolicy source
  refine ⟨fun hsame => ?_, hresource, hnamespace, hname⟩
  exact absurd (hresource.symm.trans hsame.resourceType) (by decide)

end AdmissionWatch.Event
