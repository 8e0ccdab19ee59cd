import AdmissionWatch.Event.OfAudit
import AdmissionWatch.Proofs.Dict
import AdmissionWatch.Proofs.Dispatch.Dispatcher
import AdmissionWatch.Proofs.Policy.AuditFailures

/-!
# Audit records on their way to a sink

What detection finds in an audit record, how the record is brought into an event, what the verdict on
the event is and which outcomes are reported are four decisions made in four places. They agree
(`audit_events_agree`): a record that is found to be a violation becomes an event on which there is a
verdict, with the outcome that the event states and the kind lets through.
-/

namespace AdmissionWatch

open Time

/-! ### Detection -/

namespace Detection
variable {code : Int} {message : String} {c : Category} {r : Audit.Record}

theorem isAuditOnly_of_denialKind? {found : List Marker} (h : denialKind? found = some c) : c.isAuditOnly = false := by
  unfold denialKind? at h
  repeat' split at h
  all_goals cases h
  all_goals rfl

/-- A denial has a message, since it is known by what that holds. -/
theorem denial?_cases (h : denial? code message = some c) : message ≠ "" ∧ c.isAuditOnly = false := by
  unfold denial? at h
  split at h
  · cases h
  · refine ⟨?_, isAuditOnly_of_denialKind? h⟩
    rintro rfl
    have hnothing : denialKind? (Marker.scan "") = none := by decide
    rw [hnothing] at h
    cases h

/-- A record is found to be a denial with a message, or a failure in audit mode with an annotation. -/
theorem audit?_cases (h : audit? r = some c) :
    (c.isAuditOnly = false ∧ r.message ≠ "") ∨
      c = .auditOnlyValidatingAdmissionPolicy ∧ ∃ failure, r.annotation? Audit.failureAnnotation = some failure ∧
        failure ≠ "" := by
  unfold audit? at h
  split at h
  · rename_i c' hdenial
    obtain ⟨hmessage, hkind⟩ := denial?_cases hdenial
    obtain rfl := Option.some.inj h
    exact .inl ⟨hkind, hmessage⟩
  · split at h
    · rename_i hallowed
      unfold isAuditOnlyAllow at hallowed
      obtain ⟨-, hfailed⟩ := Bool.and_eq_true_iff.mp hallowed
      obtain ⟨failure, hfailure, hne⟩ := (Option.any_eq_true _ _).mp hfailed
      exact .inr ⟨(Option.some.inj h).symm, failure, hfailure, bne_iff_ne.mp hne⟩
    · cases h

end Detection

/-! ### Events of audit records -/

namespace Event
variable (now : Instant) (r : Audit.Record) (c : Category) (source : String)

theorem message?_ofAudit (hmessage : r.message ≠ "") : (ofAudit now r c source).message? = some r.message := by
  have htext : (ofAudit now r c source).dataText? "message" = some r.message := by
    simp [ofAudit, dataText?, Dict.ofEntries, Dict.get?_insert, Json.str?]
  unfold message?
  rw [htext]
  simpa using hmessage

theorem annotations_ofAudit :
    (ofAudit now r c source).data.get? "annotations" = some (.obj (r.annotations.map fun e => (e.1, .str e.2))) := by
  simp [ofAudit, Dict.ofEntries, Dict.get?_insert]

theorem policyResult?_ofAudit : (ofAudit now r c source).policyResult? = some (.str (auditOutcome c).2) := by
  simp [ofAudit, policyResult?, Dict.ofEntries, Dict.get?_insert]

/-- The outcome that the policy result of the event stands for is the one that the event states. -/
theorem ofPolicyResult_ofAudit :
    Outcome.ofPolicyResult (ofAudit now r c source).policyResult? =
      (⟨(ofAudit now r c source).blocked, (ofAudit now r c source).success⟩,
        if c.isAuditOnly then "audit" else "fail") := by
  rw [policyResult?_ofAudit]
  cases c <;> rfl

/-- A denial was blocked, and what failed in audit mode was only observed. -/
theorem outcome_ofAudit :
    (⟨(ofAudit now r c source).blocked, (ofAudit now r c source).success⟩ : Outcome) =
      if c.isAuditOnly then .observed else .denied := by
  cases c <;> rfl

end Event

/-- What a verdict on the event of a record reports: the message of a denial, or what failed in audit
mode. -/
def Audit.Record.reported (r : Audit.Record) (c : Category) : Option String :=
  if c.isAuditOnly then r.annotation? Audit.failureAnnotation else some r.message

namespace Verdict
variable {c : Category} {e : Event}

/-- Among the kinds of denial, two have a form of message in which no policy may be found. -/
theorem ofEvent_of_message {message : String} (hdenial : c.isAuditOnly = false) (hmessage : e.message? = some message) :
    ∃ policies, ofEvent c e = .ok ⟨policies, message⟩ ∧
      (c = .kyverno ∨ c = .validatingAdmissionPolicy ∨ policies ≠ []) := by
  have hrequired : requiredMessage e = .ok message := by
    unfold requiredMessage
    rw [hmessage]
  have hextract : ∀ extract : String → PolicyMap, ofMessage extract e = .ok ⟨extract message, message⟩ := by
    intro extract
    unfold ofMessage
    rw [hrequired]
    rfl
  cases c with
  | kyverno => exact ⟨_, hextract _, .inl rfl⟩
  | validatingPolicy => exact ⟨_, hextract _, .inr (.inr (List.cons_ne_nil _ _))⟩
  | namespacedValidatingPolicy => exact ⟨_, hextract _, .inr (.inr (List.cons_ne_nil _ _))⟩
  | imageValidatingPolicy => exact ⟨_, hextract _, .inr (.inr (List.cons_ne_nil _ _))⟩
  | validatingAdmissionPolicy => exact ⟨_, hextract _, .inr (.inl rfl)⟩
  | auditOnlyValidatingAdmissionPolicy => cases hdenial
  | auditOnlyClusterPolicy => cases hdenial

theorem ofEvent_of_annotation (now : Instant) {r : Audit.Record} (c : Category) (source : String) {failure : String}
    (hfailure : r.annotation? Audit.failureAnnotation = some failure) (hne : failure ≠ "") :
    ofEvent .auditOnlyValidatingAdmissionPolicy (.ofAudit now r c source) =
      .ok ⟨Policy.auditFailures failure, failure⟩ := by
  have hfound : Dict.get? Audit.failureAnnotation (r.annotations.map fun e => (e.1, Json.str e.2)) =
      some (.str failure) := by
    rw [Dict.get?_map Json.str, show r.annotations.get? _ = some failure from hfailure]
    rfl
  unfold ofEvent ofAnnotation
  dsimp only
  rw [Event.annotations_ofAudit]
  dsimp only
  rw [hfound, Option.bind_some, Json.str?, Option.filter_some_pos (by simpa using hne)]

/-- On the event of a record that is found to be a violation there is a verdict; only in denials of two
kinds may it find no policy. -/
theorem ofEvent_ofAudit (now : Instant) {r : Audit.Record} (hfound : Detection.audit? r = some c) (source : String) :
    ∃ verdict, ofEvent c (.ofAudit now r c source) = .ok verdict ∧ some verdict.message = r.reported c ∧
      (c = .kyverno ∨ c = .validatingAdmissionPolicy ∨ verdict.isMiss = false) := by
  rcases Detection.audit?_cases hfound with ⟨hdenial, hmessage⟩ | ⟨rfl, failure, hfailure, hne⟩
  · obtain ⟨policies, hverdict, hpolicies⟩ :=
      ofEvent_of_message hdenial (Event.message?_ofAudit now r c source hmessage)
    refine ⟨_, hverdict, ?_, hpolicies.imp_right (Or.imp_right ?_)⟩
    · unfold Audit.Record.reported
      rw [hdenial]
      rfl
    · exact fun hne => List.isEmpty_eq_false_iff.mpr hne
  · refine ⟨_, ofEvent_of_annotation now _ source hfailure hne, hfailure.symm, .inr (.inr ?_)⟩
    exact List.isEmpty_eq_false_iff.mpr (Policy.auditFailures_ne_nil failure)

end Verdict

/-! ### Handling them -/

namespace Dispatch
variable {α : Type} [Quantity α]

/-- Every kind lets the outcome of its own events through. -/
theorem Forward.allows_ofAudit (now : Instant) (r : Audit.Record) (c : Category) (source : String) :
    (ofCategory c).allows (Event.ofAudit now r c source).blocked = true := by
  cases c <;> rfl

/-- What is to be done with the event of a record depends on its verdict alone. -/
theorem Disposition.ofEvent_ofAudit {now : Instant} {r : Audit.Record} {c : Category} {source : String}
    {verdict : Verdict} (hverdict : Verdict.ofEvent c (.ofAudit now r c source) = .ok verdict) :
    ofEvent c (.ofAudit now r c source) = .ok (if verdict.isMiss then .filtered .noPolicies
      else .deliver (.ofEvent (.ofAudit now r c source) verdict.policies verdict.message
        (if c.isAuditOnly then "audit" else "fail") (if c.isAuditOnly then .observed else .denied))) := by
  rw [ofEvent_eq, hverdict]
  show Except.ok (ofVerdict c (.ofAudit now r c source) verdict) = _
  unfold ofVerdict
  rw [Event.ofPolicyResult_ofAudit, Event.outcome_ofAudit, ← Event.outcome_ofAudit now r c source,
    if_pos (Forward.allows_ofAudit now r c source)]

namespace Handler
variable {now : Instant} {r : Audit.Record} {source : String} {h : Handler α} {verdict : Verdict}

/-- What is sent carries the identity of the record and the message of the verdict. -/
theorem sent_ofAudit (hverdict : Verdict.ofEvent h.category (.ofAudit now r h.category source) = .ok verdict)
    (reply : Violation → Except Failure Unit) (moment : Moment) :
    ∀ v ∈ (h.handle reply (.ofAudit now r h.category source) moment).sent, v.uid = r.auditId ∧
      v.message = verdict.message := by
  intro v hv
  rcases h.handle_sent reply (.ofAudit now r h.category source) moment with hnone | ⟨v', hdue, hone⟩
  · rw [hnone] at hv
    cases hv
  · rw [hone] at hv
    obtain rfl := List.mem_singleton.mp hv
    have hsame := Except.ok.inj ((Disposition.ofEvent_ofAudit hverdict).symm.trans hdue)
    split at hsame
    · cases hsame
    · obtain rfl := Disposition.deliver.inj hsame
      exact ⟨rfl, rfl⟩

/-- With a token at hand and a sink that accepts, the verdict decides what handling comes to. -/
theorem result_ofAudit (hverdict : Verdict.ofEvent h.category (.ofAudit now r h.category source) = .ok verdict)
    {reply : Violation → Except Failure Unit} {moment : Moment} (htoken : (h.bucket.tryTake moment).1 = .taken)
    (haccepts : ∀ v, reply v = .ok ()) :
    (h.handle reply (.ofAudit now r h.category source) moment).result =
      .ok (if verdict.isMiss then .filtered .noPolicies else .delivered) := by
  have hdue := Disposition.ofEvent_ofAudit hverdict
  split
  · rename_i hmiss
    rw [if_pos hmiss] at hdue
    rw [handle_of_filtered hdue]
  · rename_i hfound
    rw [if_neg hfound] at hdue
    rw [handle_of_token hdue (TokenBucket.acquire_of_taken htoken _), haccepts]
    rfl

end Handler

/-- Detection, events, verdicts and reported outcomes agree on every audit record: when it is found to
be a violation, there is a verdict on its event, which finds a policy unless the record is a denial of
one of two kinds; the event states the outcome that its policy result stands for, and its kind lets
that through. So with a token at hand and a sink that accepts, exactly what has a policy is delivered,
and what is sent carries the record's identity and message. -/
theorem audit_events_agree (now : Instant) (r : Audit.Record) (c : Category) (source : String)
    (hfound : Detection.audit? r = some c) :
    let e := Event.ofAudit now r c source
    ∃ verdict, Verdict.ofEvent c e = .ok verdict ∧
      (c ∈ [.validatingPolicy, .namespacedValidatingPolicy, .imageValidatingPolicy,
        .auditOnlyValidatingAdmissionPolicy] →
        verdict.isMiss = false) ∧
      Outcome.ofPolicyResult e.policyResult? =
        (⟨e.blocked, e.success⟩, if c.isAuditOnly then "audit" else "fail") ∧
      (⟨e.blocked, e.success⟩ : Outcome) = (if c.isAuditOnly then .observed else .denied) ∧
      (Forward.ofCategory c).allows e.blocked = true ∧
      ∀ (h : Handler α) (reply : Violation → Except Failure Unit) (moment : Moment), h.category = c →
        (∀ v ∈ (h.handle reply e moment).sent, v.uid = r.auditId ∧ some v.message =
          if c.isAuditOnly then r.annotation? Audit.failureAnnotation else some r.message) ∧
        ((h.bucket.tryTake moment).1 = .taken → (∀ v, reply v = .ok ()) →
          ((h.handle reply e moment).result = .ok .delivered ↔ verdict.isMiss = false) ∧
            (verdict.isMiss = true → (h.handle reply e moment).result = .ok (.filtered .noPolicies))) := by
  intro e
  obtain ⟨verdict, hverdict, hmessage, hpolicies⟩ := Verdict.ofEvent_ofAudit now hfound source
  refine ⟨verdict, hverdict, ?_, Event.ofPolicyResult_ofAudit now r c source, Event.outcome_ofAudit now r c source,
    Forward.allows_ofAudit now r c source, ?_⟩
  · intro hkind
    rcases hpolicies with rfl | rfl | hpolicies
    · exact absurd hkind (by decide)
    · exact absurd hkind (by decide)
    · exact hpolicies
  rintro h reply moment rfl
  refine ⟨fun v hv => ?_, fun htoken haccepts => ?_⟩
  · obtain ⟨huid, hsame⟩ := Handler.sent_ofAudit hverdict reply moment v hv
    exact ⟨huid, hsame ▸ hmessage⟩
  · rw [Handler.result_ofAudit hverdict htoken haccepts]
    cases verdict.isMiss <;> simp

/-- A denial by a validating policy, brought to a handler with a full bucket: it is delivered. -/
theorem audit_events_agree_denial :
    let r : Audit.Record :=
      { auditId := "4f2c"
        response :=
          { code := 400,
            message := "admission webhook \"vpol.validate.kyverno.svc\" denied the request: Policy p failed: m" } }
    let e := Event.ofAudit ⟨1000, 0⟩ r .validatingPolicy "audit-log"
    let h : Handler Rat := .create .validatingPolicy "console" 60 0
    Detection.audit? r = some .validatingPolicy ∧ (h.bucket.tryTake 0).1 = .taken ∧
      (h.handle (fun _ => .ok ()) e 0).result = .ok .delivered := by
  intro r e h
  have hfound : Detection.audit? r = some .validatingPolicy := by decide +kernel
  have htoken : (h.bucket.tryTake 0).1 = .taken := TokenBucket.tryTake_of_full (b := h.bucket) (by decide +kernel)
  obtain ⟨verdict, -, hpolicies, -, -, -, hhandled⟩ :=
    audit_events_agree (α := Rat) ⟨1000, 0⟩ r .validatingPolicy "audit-log" hfound
  have hdelivered := ((hhandled h (fun _ => .ok ()) 0 rfl).2 htoken fun _ => rfl).1
  exact ⟨hfound, htoken, hdelivered.mpr (hpolicies (by decide))⟩

end Dispatch

end AdmissionWatch
