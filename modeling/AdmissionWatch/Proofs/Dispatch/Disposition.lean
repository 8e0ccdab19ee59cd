import AdmissionWatch.Dispatch.Handler
import AdmissionWatch.Proofs.Basics

/-!
# What is due to an event

What is to be done with an event is decided by its verdict and its outcome alone (`ofEvent_eq`), before
any token is taken. A payload that is to be delivered tells a consistent story of the event
(`IsReportOf`).
-/

namespace AdmissionWatch

/-- Blocked is what failed, and passed is what was let through. -/
theorem Outcome.ofPolicyResult_consistent (result? : Option Json) :
    ((ofPolicyResult result?).1.blocked = true → (ofPolicyResult result?).2 = "fail" ∧
      (ofPolicyResult result?).1.success = false) ∧
      ((ofPolicyResult result?).1.success = true → (ofPolicyResult result?).2 = "pass" ∧
        (ofPolicyResult result?).1.blocked = false) := by
  unfold ofPolicyResult
  split <;> simp [denied, allowed, observed]

/-- The payload tells what the event says and names policies; what it says of the outcome agrees with
the policy result that it gives and with the kind of the event. -/
structure Violation.IsReportOf (v : Violation) (c : Category) (e : Event) : Prop where
  policies : v.policies ≠ []
  identity : v.change = e.change ∧ v.resourceType = e.resourceType ∧ v.namespaceName = e.namespaceName ∧
    v.name = e.name ∧ v.uid = e.uid
  time : v.timestamp = e.timestamp ∧ v.eventTime = e.eventTime
  fields : v.data = e.data ∧ v.metadata = e.metadata
  blocked : v.blocked = true → v.policyResult = "fail" ∧ v.success = false
  success : v.success = true → v.policyResult = "pass" ∧ v.blocked = false
  denial : c.isAuditOnly = false → v.blocked = true

namespace Dispatch

theorem Forward.allows_ofCategory_iff {c : Category} {blocked : Bool} :
    (ofCategory c).allows blocked = true ↔ c.isAuditOnly = true ∨ blocked = true := by
  unfold ofCategory
  split
  · rename_i haudit
    exact ⟨fun _ => .inl haudit, fun _ => rfl⟩
  · rename_i hdenial
    exact ⟨.inr, fun h => h.resolve_left hdenial⟩

namespace Disposition
variable {c : Category} {e : Event} {v : Violation}

/-- What is to be done with an event, by its verdict. -/
def ofVerdict (c : Category) (e : Event) (verdict : Verdict) : Disposition :=
  if verdict.isMiss then .filtered .noPolicies
  else if (Forward.ofCategory c).allows (Outcome.ofPolicyResult e.policyResult?).1.blocked then
    .deliver (.ofEvent e verdict.policies verdict.message (Outcome.ofPolicyResult e.policyResult?).2
      (Outcome.ofPolicyResult e.policyResult?).1)
  else .filtered .notBlocked

theorem ofEvent_eq (c : Category) (e : Event) : ofEvent c e = (Verdict.ofEvent c e).map (ofVerdict c e) := by
  unfold ofEvent
  cases Verdict.ofEvent c e with
  | error f => rfl
  | ok verdict =>
    show _ = Except.ok (ofVerdict c e verdict)
    unfold ofVerdict
    generalize Outcome.ofPolicyResult e.policyResult? = reported
    cases hmiss : verdict.isMiss with
    | true => simp [bind, Except.bind, hmiss, pure, Except.pure]
    | false =>
      cases hallowed : (Forward.ofCategory c).allows reported.1.blocked <;>
        simp [bind, Except.bind, hmiss, hallowed, pure, Except.pure]

theorem ofEvent_of_error {f : Failure} (h : Verdict.ofEvent c e = .error f) : ofEvent c e = .error f := by
  rw [ofEvent_eq, h]
  rfl

theorem verdict_of_ofEvent {x : Disposition} (h : ofEvent c e = .ok x) :
    ∃ verdict, Verdict.ofEvent c e = .ok verdict ∧ ofVerdict c e verdict = x :=
  map_eq_ok_iff.mp (ofEvent_eq c e ▸ h)

theorem ofVerdict_eq_deliver {verdict : Verdict} (h : ofVerdict c e verdict = .deliver v) :
    verdict.isMiss = false ∧
      (Forward.ofCategory c).allows (Outcome.ofPolicyResult e.policyResult?).1.blocked = true ∧
      v = .ofEvent e verdict.policies verdict.message (Outcome.ofPolicyResult e.policyResult?).2
        (Outcome.ofPolicyResult e.policyResult?).1 := by
  unfold ofVerdict at h
  split at h
  · cases h
  · rename_i hfound
    split at h
    · rename_i hallowed
      exact ⟨Bool.eq_false_iff.mpr hfound, hallowed, (Disposition.deliver.inj h).symm⟩
    · cases h

theorem isReportOf (h : ofEvent c e = .ok (.deliver v)) : v.IsReportOf c e := by
  obtain ⟨verdict, -, hdue⟩ := verdict_of_ofEvent h
  obtain ⟨hfound, hallowed, rfl⟩ := ofVerdict_eq_deliver hdue
  obtain ⟨hblocked, hsuccess⟩ := Outcome.ofPolicyResult_consistent e.policyResult?
  refine ⟨fun hnone => ?_, ⟨rfl, rfl, rfl, rfl, rfl⟩, ⟨rfl, rfl⟩, ⟨rfl, rfl⟩, hblocked, hsuccess,
    fun hdenial => ?_⟩
  · have hmiss : verdict.isMiss = true := List.isEmpty_iff.mpr hnone
    rw [hfound] at hmiss
    cases hmiss
  · rcases Forward.allows_ofCategory_iff.mp hallowed with haudit | hblocked
    · rw [hdenial] at haudit
      cases haudit
    · exact hblocked

end Disposition

end Dispatch

end AdmissionWatch
