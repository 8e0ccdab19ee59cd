import AdmissionWatch.Proofs.Detection.Denial
import AdmissionWatch.Proofs.Dispatch.AuditEvents

/-!
# What an event says was done with the request

The event of an audit record tells the outcome twice: by its kind, as a flag with a policy result, and by
the code of the answer, as the reason and the action. Every denial has a code that refuses, so that both
say the same of it. A failure in audit mode is told by annotations alone, whatever the code is, so the
two part where a request that no policy denied was refused for another cause: the event of it says
`Blocked` and that nothing was blocked (`action_of_conflict`).
-/

namespace AdmissionWatch

/-- A record found to be a violation is found to be a denial exactly if its code refuses and its message
says what denials of some kind say. -/
theorem Detection.isAuditOnly_eq_false_iff {r : Audit.Record} {c : Category} (hfound : audit? r = some c) :
    c.isAuditOnly = false ↔ 400 ≤ r.code ∧ ∃ c', Fits r.message c' := by
  rw [← isSome_denial?_iff]
  unfold audit? at hfound
  cases hdenial : denial? r.code r.message with
  | some c' =>
    rw [hdenial] at hfound
    obtain rfl := Option.some.inj hfound
    simp [(denial?_cases hdenial).2]
  | none =>
    rw [hdenial] at hfound
    obtain ⟨-, hkind⟩ := Option.ite_none_right_eq_some.mp hfound
    obtain rfl := Option.some.inj hkind
    simp [Category.isAuditOnly]

namespace Event

variable {r : Audit.Record} {c : Category}

theorem dataText?_reason_ofAudit (now : Time.Instant) (r : Audit.Record) (c : Category) (source : String) :
    (ofAudit now r c source).dataText? "reason" = some r.action := by
  simp [ofAudit, dataText?, Dict.ofEntries, Dict.get?_insert, Json.str?]

theorem metadataText?_action_ofAudit (now : Time.Instant) (r : Audit.Record) (c : Category) (source : String) :
    (ofAudit now r c source).metadataText? "action" = some r.action := by
  simp [ofAudit, metadataText?, Dict.ofEntries, Dict.get?_insert, Json.str?]

theorem blocked_ofAudit (now : Time.Instant) (r : Audit.Record) (c : Category) (source : String) :
    (ofAudit now r c source).blocked = !c.isAuditOnly := by
  cases c <;> rfl

theorem blocked_iff_policyResult_ofAudit (now : Time.Instant) (r : Audit.Record) (c : Category) (source : String) :
    (ofAudit now r c source).blocked = true ↔ (ofAudit now r c source).policyResult? = some (.str "fail") := by
  rw [policyResult?_ofAudit]
  cases c <;> simp [ofAudit, auditOutcome, Category.isAuditOnly, Outcome.denied, Outcome.observed]

/-- The reason and the action of an event are one word. It is the one for what the event says of the
request, blocked or not, exactly if the code of the answer is that of an allowed request or the message
says what denials say; where it is not, the request counts as `Blocked` although it was only observed. -/
theorem action_agrees_iff (hfound : Detection.audit? r = some c) (now : Time.Instant) (source : String) :
    let e := ofAudit now r c source
    (e.blocked = true ↔ e.policyResult? = some (.str "fail")) ∧
      ∃ action, e.dataText? "reason" = some action ∧ e.metadataText? "action" = some action ∧
        (action = (if e.blocked then "Blocked" else "Allowed") ↔
          r.code < 400 ∨ ∃ c', Detection.Fits r.message c') ∧
        (action ≠ (if e.blocked then "Blocked" else "Allowed") →
          action = "Blocked" ∧ e.blocked = false ∧ c = .auditOnlyValidatingAdmissionPolicy) := by
  intro e
  refine ⟨blocked_iff_policyResult_ofAudit now r c source, r.action, dataText?_reason_ofAudit now r c source,
    metadataText?_action_ofAudit now r c source, ?_⟩
  have hdenial := Detection.isAuditOnly_eq_false_iff hfound
  have hblocked : e.blocked = !c.isAuditOnly := blocked_ofAudit now r c source
  rw [hblocked]
  by_cases hcode : 400 ≤ r.code
  · have haction : r.action = "Blocked" := if_pos hcode
    cases hkind : c.isAuditOnly with
    | false => simp [haction, hdenial.mp hkind]
    | true =>
      have hnone : ¬∃ c', Detection.Fits r.message c' :=
        fun hfits => by simpa [hkind] using hdenial.mpr ⟨hcode, hfits⟩
      rcases Detection.audit?_cases hfound with ⟨hfalse, -⟩ | ⟨hc, -⟩
      · rw [hkind] at hfalse
        cases hfalse
      · simp [haction, hnone, hc, Int.not_lt.mpr hcode]
  · have haction : r.action = "Allowed" := if_neg hcode
    have hkind : c.isAuditOnly = true := by
      rw [← Bool.not_eq_false, hdenial]
      exact fun h => hcode h.1
    simp [haction, hkind, Int.not_le.mp hcode]

/-- A denial of a request that also failed a policy in audit mode. -/
theorem action_agrees_iff_denial :
    let r : Audit.Record :=
      { response := { code := 422, message := "ValidatingAdmissionPolicy 'p' with binding 'b' denied request: m" }
        annotations := [(Audit.decisionAnnotation, "allow"), (Audit.failureAnnotation, "[]")] }
    Detection.audit? r = some .validatingAdmissionPolicy ∧ ∀ now source,
      let e := ofAudit now r .validatingAdmissionPolicy source
      e.blocked = true ∧ e.dataText? "reason" = some "Blocked" ∧ e.metadataText? "action" = some "Blocked" := by
  intro r
  have hfound : Detection.audit? r = some .validatingAdmissionPolicy := by decide +kernel
  have hfits : Detection.Fits r.message .validatingAdmissionPolicy := by decide +kernel
  refine ⟨hfound, fun now source => ?_⟩
  obtain ⟨-, action, hreason, haction, hagrees, -⟩ := action_agrees_iff hfound now source
  obtain rfl : action = "Blocked" := hagrees.mpr (.inr ⟨_, hfits⟩)
  exact ⟨rfl, hreason, haction⟩

/-- A request that was let through by a policy in audit mode and then met an object of that name. -/
theorem action_of_conflict :
    let r : Audit.Record :=
      { response := { code := 409, message := "pods \"nginx\" already exists" }
        annotations := [(Audit.decisionAnnotation, "allow"), (Audit.failureAnnotation, "[]")] }
    Detection.audit? r = some .auditOnlyValidatingAdmissionPolicy ∧ ∀ now source,
      let e := ofAudit now r .auditOnlyValidatingAdmissionPolicy source
      e.blocked = false ∧ e.policyResult? = some (.str "audit") ∧
        e.dataText? "reason" = some "Blocked" ∧ e.metadataText? "action" = some "Blocked" := by
  intro r
  refine ⟨by decide +kernel, fun now source => ⟨rfl, policyResult?_ofAudit now r _ source, ?_, ?_⟩⟩
  · exact dataText?_reason_ofAudit now r _ source
  · exact metadataText?_action_ofAudit now r _ source

end Event

end AdmissionWatch
