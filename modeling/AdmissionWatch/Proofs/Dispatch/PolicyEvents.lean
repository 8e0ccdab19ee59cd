import AdmissionWatch.Detection
import AdmissionWatch.Proofs.Dispatch.Dispatcher
import AdmissionWatch.Proofs.Event.PolicyEvents
import AdmissionWatch.Proofs.Text.Search

/-!
# Policy events on their way to a sink

An event object with metadata, a message and the name of a policy is brought into an event on which
there is a verdict, whatever else the object holds. The verdict names that policy and one rule of it,
and the outcome passed; so with a token at hand and a sink that accepts it is delivered
(`policy_events_delivered`).
-/

namespace AdmissionWatch

open Time Text

/-- Whether `rule` is the rule that a message reports on: what stands in its first brackets, unless
that is blank or there are none, in which case the rule goes by the name of the policy. -/
def Policy.IsRuleOf (policy message rule : String) : Prop :=
  (∀ inner, Encloses '[' ']' message.toList inner →
    rule = if trim inner = [] then policy else String.ofList (trim inner)) ∧
    ((∀ inner, ¬Encloses '[' ']' message.toList inner) → rule = policy)

theorem Policy.isRuleOf (policy message : String) :
    IsRuleOf policy message ((between? "[" "]" message).getD policy) := by
  constructor
  · intro inner hinner
    rw [between?_of_encloses rfl rfl hinner]
    split <;> rfl
  · intro hnone
    rw [between?_of_not_encloses rfl rfl hnone]
    rfl

namespace Event.TellsOf
variable {e : Event} {object : Json} {metadata : Fields} {policy message : String}

theorem message? (h : e.TellsOf object metadata) (hmessage : object.member? "message" = some (.str message))
    (hne : message ≠ "") : e.message? = some message := by
  have htext : e.dataText? "message" = some message := by
    unfold dataText?
    rw [h.data "message" (by decide) (by decide), hmessage]
    rfl
  unfold Event.message?
  rw [htext]
  simpa using hne

/-- The event gives the outcome that its metadata tell of. -/
theorem ofPolicyResult (h : e.TellsOf object metadata) :
    Outcome.ofPolicyResult e.policyResult? = (⟨e.blocked, e.success⟩, "pass") := by
  unfold policyResult?
  rw [h.policyResult, h.outcome]
  rfl

theorem verdict (h : e.TellsOf object metadata) (hmessage : object.member? "message" = some (.str message))
    (hne : message ≠ "") (hpolicy : object.at? ["involvedObject", "name"] = some (.str policy))
    (hnamed : policy ≠ "") :
    Verdict.ofEvent .auditOnlyClusterPolicy e = .ok ⟨Policy.auditEvent policy message, message⟩ := by
  have hrequired : Verdict.requiredMessage e = .ok message := by
    unfold Verdict.requiredMessage
    rw [h.message? hmessage hne]
  have hname : e.dataText? "policyName" = some policy := by
    unfold dataText?
    rw [h.policyName.1, Json.textAt_of_str hpolicy]
    rfl
  unfold Verdict.ofEvent Verdict.ofPolicyEvent
  simp only [hrequired, hname, Option.some_or]
  rw [Option.filter_some_pos (by simpa using hnamed)]
  rfl

end Event.TellsOf

namespace Dispatch
variable {α : Type} [Quantity α]

/-- An event object that has metadata, a message and the name of the policy that failed is brought into
an event, whatever else is in it. The outcome that its policy result stands for is the one that the
event states: it passed. With a token at hand and a sink that accepts, the event is delivered as one
rule of that policy, with the message as what it found. -/
theorem policy_events_delivered (now : Instant) (object : Json) (metadata : Fields) (policy message : String)
    (hmetadata : object.member? "metadata" = some (.obj metadata))
    (hmessage : object.member? "message" = some (.str message)) (hne : message ≠ "")
    (hpolicy : object.at? ["involvedObject", "name"] = some (.str policy)) (hnamed : policy ≠ "") :
    ∃ e, Event.ofPolicyEvent now object = .ok e ∧ e.TellsOf object metadata ∧
      Outcome.ofPolicyResult e.policyResult? = (⟨e.blocked, e.success⟩, "pass") ∧ e.blocked = false ∧
      e.success = true ∧
      ∃ rule, Policy.IsRuleOf policy message rule ∧
        ∀ (h : Handler α) (reply : Violation → Except Failure Unit) (moment : Moment),
          h.category = .auditOnlyClusterPolicy →
          (h.bucket.tryTake moment).1 = .taken → (∀ v, reply v = .ok ()) →
          (h.handle reply e moment).result = .ok .delivered ∧
            ∃ v, (h.handle reply e moment).sent = [v] ∧ v.policies = [(policy, [(rule, message)])] ∧
              v.message = message ∧
              v.policyResult = "pass" ∧ v.blocked = false ∧ v.success = true ∧
              v.namespaceName = e.namespaceName ∧ v.uid = e.uid ∧ v.resourceType = e.resourceType ∧
              v.data = e.data := by
  obtain ⟨e, he, htells⟩ := Event.exists_ofPolicyEvent now hmetadata
  have hresult := htells.ofPolicyResult
  obtain ⟨hblocked, hsuccess⟩ := Outcome.mk.injEq _ _ _ _ ▸ htells.outcome
  refine ⟨e, he, htells, hresult, hblocked, hsuccess, _, Policy.isRuleOf policy message, ?_⟩
  rintro h reply moment hkind htoken haccepts
  have hverdict := htells.verdict hmessage hne hpolicy hnamed
  have hdue : Disposition.ofEvent h.category e =
      .ok (.deliver (.ofEvent e (Policy.auditEvent policy message) message "pass" .allowed)) := by
    rw [Disposition.ofEvent_eq, hkind, hverdict]
    show Except.ok (Disposition.ofVerdict _ e _) = _
    unfold Disposition.ofVerdict
    rw [hresult, htells.outcome]
    rfl
  rw [Handler.handle_of_token hdue (TokenBucket.acquire_of_taken htoken _), haccepts]
  exact ⟨rfl, _, rfl, rfl, rfl, rfl, rfl, rfl, rfl, rfl, rfl, rfl⟩

/-- An object with a policy name and a policy result of its own, at which its event does not look. The
brackets of its message are blank, so the rule goes by the name of the policy. -/
theorem policy_events_delivered_blank_brackets :
    let object : Json := .object
      [("involvedObject", .object [("kind", .str "ClusterPolicy"), ("name", .str "require-labels")]),
       ("reason", .str "PolicyViolation"), ("action", .str "Resource Passed"), ("message", .str "web: [ ] fail"),
       ("policyName", .str "other"), ("related", .null),
       ("metadata", .object [("policyResult", .str "fail"), ("managedFields", .null), ("uid", .str "e-1")])]
    let h : Handler Rat := .create .auditOnlyClusterPolicy "console" 60 0
    Detection.isAuditOnlyPolicyEvent object = true ∧ ∃ e, Event.ofPolicyEvent ⟨1000, 0⟩ object = .ok e ∧
      ((h.handle (fun _ => .ok ()) e 0).sent.map fun v => (v.policies, v.policyResult)) =
        [([("require-labels", [("require-labels", "web: [ ] fail")])], "pass")] := by
  intro object h
  have htoken : (h.bucket.tryTake 0).1 = .taken := TokenBucket.tryTake_of_full (b := h.bucket) (by decide +kernel)
  obtain ⟨e, he, -, -, -, -, rule, hrule, hhandled⟩ :=
    policy_events_delivered (α := Rat) ⟨1000, 0⟩ object
      [("managedFields", .null), ("policyResult", .str "fail"), ("uid", .str "e-1")]
      "require-labels" "web: [ ] fail" (by rfl) (by rfl) (by decide) (by rfl) (by decide)
  obtain ⟨-, v, hsent, hpolicies, -, hpassed, -⟩ := hhandled h (fun _ => .ok ()) 0 rfl htoken fun _ => rfl
  have hnamed : rule = "require-labels" :=
    hrule.1 [' '] ⟨"web: ".toList, " fail".toList, by decide, by decide, by decide⟩
  refine ⟨by decide +kernel, e, he, ?_⟩
  rw [hsent, List.map_singleton, hpolicies, hpassed, hnamed]

end Dispatch

end AdmissionWatch
