import AdmissionWatch.Dispatch.Dispatcher
import AdmissionWatch.Proofs.Dispatch.Disposition

/-!
# What dispatching hands to a sink

An event brings one payload at most to a sink, and which one it is does not depend on the handler:
it is the one that the event is found to deserve (`dispatch_sent`). What the sink answers changes
nothing about it. Only a handler that has something to deliver takes a token, and only from its own
bucket (`dispatch_accounts`).
-/

namespace AdmissionWatch.Dispatch

open Time

variable {α : Type} {d : Dispatcher α} {c : Category} {h : Handler α}

/-! ### Handlers by kind -/

namespace Dispatcher

theorem handler?_category (hfound : d.handler? c = some h) : h.category = c := by
  simpa using List.find?_some hfound

/-- A handler that is registered takes the place of the one of its kind and leaves the others. -/
theorem handler?_register (d : Dispatcher α) (h : Handler α) (c : Category) :
    (d.register h).handler? c = if h.category = c then some h else d.handler? c := by
  unfold register handler?
  rw [List.find?_append, List.find?_filter]
  split
  · rename_i hkind
    have hgone : d.handlers.find? (fun o => decide ((o.category != h.category) = true ∧ (o.category == c) = true)) =
        none := by
      refine List.find?_eq_none.mpr fun o _ => ?_
      simp [hkind]
    rw [hgone, List.find?_cons_of_pos (by simpa using hkind)]
    rfl
  · rename_i hkind
    have hkept : (fun o : Handler α => decide ((o.category != h.category) = true ∧ (o.category == c) = true)) =
        fun o => o.category == c := by
      funext o
      by_cases ho : o.category = c
      · simp [ho, Ne.symm hkind]
      · simp [ho]
    rw [hkept, List.find?_cons_of_neg (by simpa using hkind), List.find?_nil, Option.or_none]

theorem handler?_register_self (hfound : d.handler? c = some h) (c' : Category) :
    (d.register h).handler? c' = d.handler? c' := by
  rw [handler?_register, handler?_category hfound]
  split
  · rename_i hkind
    exact hkind ▸ hfound.symm
  · rfl

end Dispatcher

variable [Quantity α]

namespace Dispatcher
variable {sink : Category → Except Failure String} {perMinute : Nat} {now : Moment}

end Dispatcher

/-! ### Tokens -/

namespace TokenBucket

theorem tryTake_of_full {b : TokenBucket α} {now : Moment} (h : full ≤ (b.refill now).tokens) :
    (b.tryTake now).1 = .taken := by
  unfold tryTake
  rw [if_pos h]

/-- Whoever finds a token need not wait for one. -/
theorem acquire_of_taken {b : TokenBucket α} {now : Moment} (h : (b.tryTake now).1 = .taken) (timeout : Span) :
    (b.acquire timeout now).result = .ok () := by
  unfold acquire
  rw [acquireBy]
  cases htake : b.tryTake now with
  | mk attempt b' =>
    rw [htake] at h
    obtain rfl : attempt = .taken := h
    rfl

end TokenBucket

/-! ### Handling -/

/-- Whether a payload is the one that an event is to be delivered with. -/
def IsPayloadOf (e : Event) (v : Violation) : Prop :=
  ∃ c, e.category? = some c ∧ Disposition.ofEvent c e = .ok (.deliver v)

namespace Handler
variable {reply : Violation → Except Failure Unit} {e : Event} {now : Moment}

theorem handle_of_error {f : Failure} (hdue : Disposition.ofEvent h.category e = .error f) :
    h.handle reply e now = ⟨.error f, [], now, h⟩ := by
  unfold handle
  rw [hdue]

theorem handle_of_filtered {reason : FilterReason} (hdue : Disposition.ofEvent h.category e = .ok (.filtered reason)) :
    h.handle reply e now = ⟨.ok (.filtered reason), [], now, h⟩ := by
  unfold handle
  rw [hdue]

/-- What is to be delivered waits for a token, and without one it is not sent. -/
theorem handle_of_late {v : Violation} (hdue : Disposition.ofEvent h.category e = .ok (.deliver v)) {f : Failure}
    (hlate : (h.bucket.acquire h.patience now).result = .error f) :
    h.handle reply e now =
      ⟨.error f, [], (h.bucket.acquire h.patience now).moment,
        { h with bucket := (h.bucket.acquire h.patience now).bucket }⟩ := by
  unfold handle
  simp only [hdue, hlate]

theorem handle_of_token {v : Violation} (hdue : Disposition.ofEvent h.category e = .ok (.deliver v))
    (htoken : (h.bucket.acquire h.patience now).result = .ok ()) :
    h.handle reply e now =
      ⟨(reply v).map fun _ => .delivered, [v], (h.bucket.acquire h.patience now).moment,
        { h with bucket := (h.bucket.acquire h.patience now).bucket }⟩ := by
  unfold handle
  simp only [hdue, htoken]

/-- Handling an event comes to one of these: nothing is due and nothing is taken, or a payload is due
for which there is no token, or which is handed to the sink. -/
theorem handle_cases (h : Handler α) (reply : Violation → Except Failure Unit) (e : Event) (now : Moment) :
    ((∃ f, Disposition.ofEvent h.category e = .error f ∧ (h.handle reply e now).result = .error f) ∨
        ∃ reason, (h.handle reply e now).result = .ok (.filtered reason)) ∧
      (h.handle reply e now).sent = [] ∧ (h.handle reply e now).handler = h ∨
    ∃ v, Disposition.ofEvent h.category e = .ok (.deliver v) ∧
      (h.handle reply e now).handler.category = h.category ∧
      ((∃ f, (h.handle reply e now).result = .error f ∧ (h.handle reply e now).sent = []) ∨
        (h.handle reply e now).result = (reply v).map (fun _ => .delivered) ∧ (h.handle reply e now).sent = [v]) := by
  cases hdue : Disposition.ofEvent h.category e with
  | error f =>
    rw [handle_of_error hdue]
    exact .inl ⟨.inl ⟨f, rfl, rfl⟩, rfl, rfl⟩
  | ok due =>
    cases due with
    | filtered reason =>
      rw [handle_of_filtered hdue]
      exact .inl ⟨.inr ⟨reason, rfl⟩, rfl, rfl⟩
    | deliver v =>
      refine .inr ⟨v, rfl, ?_⟩
      cases htoken : (h.bucket.acquire h.patience now).result with
      | error f =>
        rw [handle_of_late hdue htoken]
        exact ⟨rfl, .inl ⟨f, rfl, rfl⟩⟩
      | ok =>
        rw [handle_of_token hdue htoken]
        exact ⟨rfl, .inr ⟨rfl, rfl⟩⟩

/-- A handler sends the payload that is due, once, or nothing. -/
theorem handle_sent (h : Handler α) (reply : Violation → Except Failure Unit) (e : Event) (now : Moment) :
    (h.handle reply e now).sent = [] ∨
      ∃ v, Disposition.ofEvent h.category e = .ok (.deliver v) ∧ (h.handle reply e now).sent = [v] := by
  rcases h.handle_cases reply e now with ⟨-, hsent, -⟩ | ⟨v, hdue, -, ⟨f, -, hsent⟩ | ⟨-, hsent⟩⟩
  · exact .inl hsent
  · exact .inl hsent
  · exact .inr ⟨v, hdue, hsent⟩

/-- An event counts as delivered when the sink has accepted its payload. -/
theorem handle_delivered_iff (h : Handler α) (reply : Violation → Except Failure Unit) (e : Event) (now : Moment) :
    (h.handle reply e now).result = .ok .delivered ↔
      ∃ v, (h.handle reply e now).sent = [v] ∧ reply v = .ok () := by
  rcases h.handle_cases reply e now with ⟨hresult, hsent, -⟩ |
    ⟨v, -, -, ⟨f, hresult, hsent⟩ | ⟨hresult, hsent⟩⟩
  · rcases hresult with ⟨f, -, hresult⟩ | ⟨reason, hresult⟩ <;> simp [hresult, hsent]
  · simp [hresult, hsent]
  · rw [hresult, map_eq_ok_iff, hsent]
    refine ⟨fun ⟨_, hreply, _⟩ => ⟨v, rfl, hreply⟩, fun ⟨v', hv, hreply⟩ => ?_⟩
    obtain ⟨rfl, -⟩ := List.cons.inj hv
    exact ⟨(), hreply, rfl⟩

theorem handle_category (h : Handler α) (reply : Violation → Except Failure Unit) (e : Event) (now : Moment) :
    (h.handle reply e now).handler.category = h.category := by
  rcases h.handle_cases reply e now with ⟨-, -, hsame⟩ | ⟨v, -, hcategory, -⟩
  · exact congrArg _ hsame
  · exact hcategory

/-- A handler that finds nothing to deliver stays as it is. -/
theorem handle_keeps (hnone : (∃ reason, (h.handle reply e now).result = .ok (.filtered reason)) ∨
      ∃ f, Verdict.ofEvent h.category e = .error f) : (h.handle reply e now).handler = h := by
  rcases h.handle_cases reply e now with ⟨-, -, hsame⟩ | ⟨v, hdue, -, hresult⟩
  · exact hsame
  · exfalso
    rcases hnone with ⟨reason, hfiltered⟩ | ⟨f, hverdict⟩
    · rcases hresult with ⟨f, herror, -⟩ | ⟨hreply, -⟩
      · rw [hfiltered] at herror
        cases herror
      · obtain ⟨_, -, hother⟩ := map_eq_ok_iff.mp (hreply.symm.trans hfiltered)
        cases hother
    · rw [Disposition.ofEvent_of_error hverdict] at hdue
      cases hdue

end Handler

/-! ### Dispatching -/

namespace Dispatcher
variable {reply : Violation → Except Failure Unit} {e : Event} {now : Moment}

/-- An event is handled by the handler of its kind, which is then put back. -/
theorem dispatch_of_handler (hkind : e.category? = some c) (hfound : d.handler? c = some h) :
    (d.dispatch reply e now).result = (h.handle reply e now).result.map (.handled c) ∧
      (d.dispatch reply e now).sent = (h.handle reply e now).sent ∧
      (d.dispatch reply e now).dispatcher = d.register (h.handle reply e now).handler := by
  unfold dispatch
  rw [hkind]
  dsimp only
  rw [hfound]
  dsimp only
  cases (h.handle reply e now).result with
  | error f => exact ⟨rfl, rfl, rfl⟩
  | ok outcome => exact ⟨rfl, rfl, rfl⟩

theorem dispatch_cases (d : Dispatcher α) (reply : Violation → Except Failure Unit) (e : Event) (now : Moment) :
    ((d.dispatch reply e now).result = .ok .unrouted ∧ (d.dispatch reply e now).sent = [] ∧
      (d.dispatch reply e now).dispatcher = d) ∨
    ∃ c h, e.category? = some c ∧ d.handler? c = some h ∧
      (d.dispatch reply e now).result = (h.handle reply e now).result.map (.handled c) ∧
      (d.dispatch reply e now).sent = (h.handle reply e now).sent ∧
      (d.dispatch reply e now).dispatcher = d.register (h.handle reply e now).handler := by
  cases hkind : e.category? with
  | none =>
    unfold dispatch
    rw [hkind]
    exact .inl ⟨rfl, rfl, rfl⟩
  | some c =>
    cases hfound : d.handler? c with
    | none =>
      unfold dispatch
      rw [hkind]
      dsimp only
      rw [hfound]
      exact .inl ⟨rfl, rfl, rfl⟩
    | some h => exact .inr ⟨c, h, rfl, hfound, dispatch_of_handler hkind hfound⟩

theorem dispatch_sent (d : Dispatcher α) (reply : Violation → Except Failure Unit) (e : Event) (now : Moment) :
    (d.dispatch reply e now).sent = [] ∨ ∃ v, IsPayloadOf e v ∧ (d.dispatch reply e now).sent = [v] := by
  rcases d.dispatch_cases reply e now with ⟨-, hsent, -⟩ | ⟨c, h, hkind, hfound, -, hsent, -⟩
  · exact .inl hsent
  · rw [hsent]
    rcases h.handle_sent reply e now with hnone | ⟨v, hdue, hone⟩
    · exact .inl hnone
    · exact .inr ⟨v, ⟨c, hkind, handler?_category hfound ▸ hdue⟩, hone⟩

theorem dispatch_delivered_iff (d : Dispatcher α) (reply : Violation → Except Failure Unit) (e : Event)
    (now : Moment) : (∃ c, (d.dispatch reply e now).result = .ok (.handled c .delivered)) ↔
      ∃ v, (d.dispatch reply e now).sent = [v] ∧ reply v = .ok () := by
  rcases d.dispatch_cases reply e now with ⟨hresult, hsent, -⟩ | ⟨c, h, -, -, hresult, hsent, -⟩
  · simp [hresult, hsent]
  · rw [hresult, hsent, ← h.handle_delivered_iff reply e now]
    refine ⟨fun ⟨c', hc⟩ => ?_, fun hdelivered => ⟨c, map_eq_ok_iff.mpr ⟨_, hdelivered, rfl⟩⟩⟩
    obtain ⟨outcome, houtcome, hhandled⟩ := map_eq_ok_iff.mp hc
    obtain ⟨-, rfl⟩ := Dispatched.handled.inj hhandled
    exact houtcome

theorem dispatch_keeps_others (hother : e.category? ≠ some c) :
    (d.dispatch reply e now).dispatcher.handler? c = d.handler? c := by
  rcases d.dispatch_cases reply e now with ⟨-, -, hsame⟩ | ⟨c', h, hkind, hfound, -, -, hregistered⟩
  · rw [hsame]
  · rw [hregistered, handler?_register, h.handle_category, handler?_category hfound, if_neg]
    rintro rfl
    exact hother hkind

theorem dispatch_keeps (hnone : (d.dispatch reply e now).result = .ok .unrouted ∨
      (∃ c reason, (d.dispatch reply e now).result = .ok (.handled c (.filtered reason))) ∨
      ∃ c f, e.category? = some c ∧ Verdict.ofEvent c e = .error f) (c : Category) :
    (d.dispatch reply e now).dispatcher.handler? c = d.handler? c := by
  rcases d.dispatch_cases reply e now with ⟨-, -, hsame⟩ | ⟨c', h, hkind, hfound, hresult, -, hregistered⟩
  · rw [hsame]
  · have hhandler : (h.handle reply e now).handler = h := by
      refine Handler.handle_keeps ?_
      rcases hnone with hunrouted | ⟨c'', reason, hfiltered⟩ | ⟨c'', f, hkind', hverdict⟩
      · obtain ⟨_, -, hother⟩ := map_eq_ok_iff.mp (hresult.symm.trans hunrouted)
        cases hother
      · obtain ⟨outcome, houtcome, hhandled⟩ := map_eq_ok_iff.mp (hresult.symm.trans hfiltered)
        obtain ⟨-, rfl⟩ := Dispatched.handled.inj hhandled
        exact .inl ⟨reason, houtcome⟩
      · obtain rfl := Option.some.inj (hkind.symm.trans hkind')
        exact .inr ⟨f, handler?_category hfound ▸ hverdict⟩
    rw [hregistered, hhandler]
    exact handler?_register_self hfound c

/-- Whatever an event holds and whatever the sink answers, dispatching it hands over one payload at
most, counts it as delivered exactly when the sink has accepted that, and says in it what the event
says and one consistent outcome. Tokens are taken from the bucket of its kind only, and from none
unless there is something to deliver. -/
theorem dispatch_accounts (d : Dispatcher α) (reply : Violation → Except Failure Unit) (e : Event) (now : Moment) :
    let r := d.dispatch reply e now
    r.sent.length ≤ 1 ∧
      ((∃ c, r.result = .ok (.handled c .delivered)) ↔ ∃ v, r.sent = [v] ∧ reply v = .ok ()) ∧
      (∀ v ∈ r.sent, ∃ c, e.category? = some c ∧ v.IsReportOf c e) ∧
      ((r.result = .ok .unrouted ∨ (∃ c reason, r.result = .ok (.handled c (.filtered reason))) ∨
          ∃ c f, e.category? = some c ∧ Verdict.ofEvent c e = .error f) →
            ∀ c, r.dispatcher.handler? c = d.handler? c) ∧
      ∀ c, e.category? ≠ some c → r.dispatcher.handler? c = d.handler? c := by
  intro r
  refine ⟨?_, d.dispatch_delivered_iff reply e now, ?_, dispatch_keeps, fun c => dispatch_keeps_others⟩
  · rcases d.dispatch_sent reply e now with hnone | ⟨v, -, hone⟩
    · exact hnone ▸ Nat.zero_le 1
    · exact hone ▸ Nat.le_refl 1
  · intro v hv
    rcases d.dispatch_sent reply e now with hnone | ⟨v', ⟨c, hkind, hdue⟩, hone⟩
    · rw [hnone] at hv
      cases hv
    · rw [hone] at hv
      obtain rfl := List.mem_singleton.mp hv
      exact ⟨c, hkind, Disposition.isReportOf hdue⟩

/-- A denial whose payload the sink accepts. -/
theorem dispatch_accounts_denial :
    let d : Dispatcher Rat := .withSink "console" 60 0
    let e : Event := { name := "vpol-violation-x", data := [("message", .str "denied")], uid := "4f2c" }
    let r := d.dispatch (fun _ => .ok ()) e 0
    ∃ v, r.sent = [v] ∧ v.uid = "4f2c" ∧ v.blocked = true ∧ v.policyResult = "fail" ∧
      (∃ c, r.result = .ok (.handled c .delivered)) ∧ r.dispatcher.handler? .kyverno = d.handler? .kyverno := by
  intro d e r
  have hdue : Disposition.ofEvent .validatingPolicy e =
      .ok (.deliver (.ofEvent e (Policy.validating "denied") "denied" "fail" .denied)) := rfl
  have hkind : e.category? = some .validatingPolicy := by decide +kernel
  let h : Handler Rat := .create .validatingPolicy "console" 60 0
  have hfound : d.handler? .validatingPolicy = some h := rfl
  have htoken : (h.bucket.tryTake 0).1 = .taken := TokenBucket.tryTake_of_full (b := h.bucket) (by decide +kernel)
  have hsent : r.sent = [.ofEvent e (Policy.validating "denied") "denied" "fail" .denied] :=
    (dispatch_of_handler hkind hfound).2.1.trans
      (congrArg Handler.Run.sent (Handler.handle_of_token hdue (TokenBucket.acquire_of_taken htoken _)))
  obtain ⟨-, hdelivered, hreport, -, hothers⟩ := dispatch_accounts d (fun _ => .ok ()) e 0
  obtain ⟨c, hkind', hisReport⟩ := hreport _ (hsent ▸ List.mem_singleton_self _)
  obtain rfl := Option.some.inj (hkind.symm.trans hkind')
  have hblocked := hisReport.denial rfl
  refine ⟨_, hsent, hisReport.identity.2.2.2.2, hblocked, (hisReport.blocked hblocked).1,
    hdelivered.mpr ⟨_, hsent, rfl⟩, ?_⟩
  exact hothers .kyverno (hkind ▸ by decide)

end Dispatcher

end AdmissionWatch.Dispatch
