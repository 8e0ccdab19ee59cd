import AdmissionWatch.Dispatch.Dispatcher
import AdmissionWatch.Event.OfAudit
import AdmissionWatch.Proofs.Event.PolicyEvents
import AdmissionWatch.Proofs.Text.Search

/-!
# Events routed by their names

A name tells the kind of its event: it is the stem of the kind, or goes on after it with a hyphen
(`HasStem`). No stem with a hyphen begins another, so that a name tells one kind at most, whatever
hyphens there are in what follows the stem. Whichever way an event came about, its name tells the kind
that is set on it, and it is dispatched alike when no kind is set (`routed_by_name`).
-/

namespace AdmissionWatch

namespace Category

variable {name : String} {c c' : Category}

/-- Whether a name is the stem of a kind or begins with it and a hyphen. -/
def HasStem (name : String) (c : Category) : Prop :=
  name = c.stem ∨ ∃ rest, name = c.stem ++ "-" ++ rest

theorem mem_all (c : Category) : c ∈ all := by
  cases c <;> decide

/-- With a hyphen put after it every name of a kind begins alike. -/
theorem hasStem_iff_isPrefix : HasStem name c ↔ c.stem.toList ++ ['-'] <+: name.toList ++ ['-'] := by
  constructor
  · rintro (rfl | ⟨rest, rfl⟩)
    · exact List.prefix_rfl
    · exact ⟨rest.toList ++ ['-'], by simp⟩
  · rintro ⟨more, hmore⟩
    rcases List.eq_nil_or_concat more with rfl | ⟨rest, d, rfl⟩
    · rw [List.append_nil, List.append_cancel_right_eq, String.toList_inj] at hmore
      exact .inl hmore.symm
    · rw [List.concat_eq_append, ← List.append_assoc] at hmore
      obtain ⟨hname, -⟩ := List.append_inj' hmore rfl
      refine .inr ⟨String.ofList rest, String.toList_inj.mp ?_⟩
      simp [← hname]

theorem names_iff : c.names name.toList = true ↔ HasStem name c := by
  have hparts : HasStem name c ↔ Text.dropStart? c.stem.toList name.toList = some [] ∨
      ∃ rest, Text.dropStart? c.stem.toList name.toList = some ('-' :: rest) := by
    simp only [Text.dropStart?_eq_some_iff, List.append_nil, String.toList_inj]
    refine or_congr_right ⟨?_, ?_⟩
    · rintro ⟨rest, rfl⟩
      exact ⟨rest.toList, by simp⟩
    · rintro ⟨rest, hrest⟩
      exact ⟨String.ofList rest, String.toList_inj.mp (by simp [hrest])⟩
  rw [hparts]
  unfold names
  split <;> simp [*]

theorem HasStem.unique (h : HasStem name c) (h' : HasStem name c') : c = c' := by
  have hstems : ∀ c ∈ all, ∀ c' ∈ all, c.stem.toList ++ ['-'] <+: c'.stem.toList ++ ['-'] →
      c = c' := by decide
  -- Of two texts that begin the name one begins the other, and among the stems none does.
  rw [hasStem_iff_isPrefix] at h h'
  rcases List.prefix_or_prefix_of_prefix h h' with hin | hin
  · exact hstems c c.mem_all c' c'.mem_all hin
  · exact (hstems c' c'.mem_all c c.mem_all hin).symm

theorem hasStem_of_ofName? (h : ofName? name = some c) : HasStem name c := by
  have hnames : c.names name.toList = true := by simpa using List.find?_some h
  exact names_iff.mp hnames

theorem ofName?_eq_some_iff : ofName? name = some c ↔ HasStem name c := by
  refine ⟨hasStem_of_ofName?, fun h => ?_⟩
  have hsome : (ofName? name).isSome := List.find?_isSome.mpr ⟨c, c.mem_all, names_iff.mpr h⟩
  obtain ⟨c', hc'⟩ := Option.isSome_iff_exists.mp hsome
  rw [hc', (hasStem_of_ofName? hc').unique h]

end Category

namespace Event

/-- Whether an event of a kind is one into which an audit record or an event object was brought. -/
inductive Derived : Event → Category → Prop
  | ofAudit (now : Time.Instant) (r : Audit.Record) (c : Category) (source : String) :
    Derived (ofAudit now r c source) c
  | ofPolicyEvent {now : Time.Instant} {object : Json} {e : Event} (h : Event.ofPolicyEvent now object = .ok e) :
    Derived e .auditOnlyClusterPolicy

variable {e : Event} {c : Category}

theorem Derived.hasStem (h : e.Derived c) : e.category = some c ∧ Category.HasStem e.name c := by
  cases h with
  | ofAudit now r c source => exact ⟨rfl, .inr ⟨_, by simp [Event.ofAudit, String.append_assoc]; rfl⟩⟩
  | ofPolicyEvent h =>
    obtain ⟨-, -, -, -, hkind, hname⟩ := exists_ofObject h
    exact ⟨hkind, .inr hname⟩

end Event

namespace Dispatch

variable {α : Type} [Quantity α] {e : Event} {c : Category}

/-- What is to be done with an event of a kind is not told by the kind that is set on it. -/
theorem Disposition.ofEvent_category (c : Category) (e : Event) (kind : Option Category) :
    ofEvent c { e with category := kind } = ofEvent c e := by
  cases c <;> rfl

/-- Two events of one kind with which the same is to be done are handled alike. -/
theorem Dispatcher.dispatch_category (d : Dispatcher α) (reply : Violation → Except Failure Unit) (now : Time.Moment)
    {kind : Option Category} (h : ({ e with category := kind } : Event).category? = e.category?) :
    d.dispatch reply { e with category := kind } now = d.dispatch reply e now := by
  unfold dispatch Handler.handle
  simp only [h, Disposition.ofEvent_category]

/-- A name tells a kind exactly if it begins with the stem of it, and one kind at most. The name of an
event that an audit record or an event object was brought into tells the kind that is set on it, so that
the event is dispatched alike without that. -/
theorem routed_by_name :
    (∀ name c, Category.ofName? name = some c ↔ Category.HasStem name c) ∧
      (∀ name c c', Category.HasStem name c → Category.HasStem name c' → c = c') ∧
      ∀ (e : Event) c, e.Derived c → e.category = some c ∧ Category.ofName? e.name = some c ∧
        ({ e with category := none } : Event).category? = some c ∧
        ∀ (d : Dispatcher α) (reply : Violation → Except Failure Unit) (now : Time.Moment),
          d.dispatch reply { e with category := none } now = d.dispatch reply e now := by
  refine ⟨fun _ _ => Category.ofName?_eq_some_iff, fun _ _ _ h h' => h.unique h', fun e c h => ?_⟩
  obtain ⟨hkind, hstem⟩ := h.hasStem
  have hname : Category.ofName? e.name = some c := Category.ofName?_eq_some_iff.mpr hstem
  have hset : e.category? = some c := by
    unfold Event.category?
    rw [hkind]
    rfl
  exact ⟨hkind, hname, hname, fun d reply now => d.dispatch_category reply now (hname.trans hset.symm)⟩

/-- A record whose identifier and object are hyphens around what looks like another kind. -/
theorem routed_by_name_hyphens :
    let r : Audit.Record := { auditId := "-1-", objectRef := { resource := "violation-kyverno", name := "-" } }
    let e := Event.ofAudit ⟨0, 0⟩ r .validatingAdmissionPolicy "audit-log"
    e.Derived .validatingAdmissionPolicy ∧ Category.ofName? e.name = some .validatingAdmissionPolicy ∧
      ∀ (d : Dispatcher Rat) (reply : Violation → Except Failure Unit) (now : Time.Moment),
        d.dispatch reply { e with category := none } now = d.dispatch reply e now := by
  intro r e
  have hderived : e.Derived .validatingAdmissionPolicy := .ofAudit _ _ _ _
  obtain ⟨-, -, hrouted⟩ := routed_by_name (α := Rat)
  obtain ⟨-, hname, -, hdispatch⟩ := hrouted e _ hderived
  exact ⟨hderived, hname, hdispatch⟩

end Dispatch

end AdmissionWatch
