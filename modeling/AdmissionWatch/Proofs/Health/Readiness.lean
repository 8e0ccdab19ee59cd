import Mathlib.Algebra.GroupWithZero.Nat
import Mathlib.Data.List.Induction
import AdmissionWatch.Health.State
import AdmissionWatch.Proofs.Dict

/-!
# What readiness depends on

Checkers are asked one after the other, and each has what is left of the time for all
(`AnswersInTime`). What one finds is reported under its name, where a later checker of that name puts
its own finding (`Reported`). So readiness is judged by the last checker of each name
(`readiness_judges_reported`), which are all of them when no two have one name; else a failure may be
hidden by a checker that passes (`failure_hidden_by_namesake`).
-/

namespace AdmissionWatch.Health

open Time Telemetry

variable {s : Snapshot} {checkers before after : List Checker} {c c' : Checker}

/-- The time that checkers take one after the other. -/
def totalDelay (checkers : List Checker) : Nat :=
  (checkers.map fun c => c.delay.nanos).sum

/-- Whether a checker answers in time when `before` are asked first: at once, or while there is time left. -/
def AnswersInTime (before : List Checker) (c : Checker) : Prop :=
  c.delay = .zero ∨ totalDelay before + c.delay.nanos ≤ checkTimeout.nanos

instance (before : List Checker) (c : Checker) : Decidable (AnswersInTime before c) :=
  inferInstanceAs (Decidable (_ ∨ _))

/-- Whether a checker finds nothing wrong, and says so in time. -/
def Passes (s : Snapshot) (before : List Checker) (c : Checker) : Prop :=
  AnswersInTime before c ∧ c.check s = none

/-- Whether what a checker finds, asked after `before`, is what is reported under its name: no later one
has that name. -/
def Reported (checkers before : List Checker) (c : Checker) : Prop :=
  ∃ after, checkers = before ++ c :: after ∧ ∀ c' ∈ after, c'.name ≠ c.name

/-- Whether a report lists a component as unhealthy. -/
def HasUnhealthy (details : Dict Finding) : Prop :=
  ∃ d ∈ details, Status.ofFinding d.2 = .unhealthy

/-! ### Asking -/

theorem asked_append (s : Snapshot) (checkers : List Checker) (c : Checker) :
    asked s (checkers ++ [c]) =
      ((asked s checkers).1.insert c.name (ask s (asked s checkers).2 c).1, (ask s (asked s checkers).2 c).2) := by
  rw [asked, List.foldl_append]
  rfl

theorem totalDelay_append (checkers : List Checker) (c : Checker) :
    totalDelay (checkers ++ [c]) = totalDelay checkers + c.delay.nanos := by
  simp [totalDelay]

theorem delay_eq_zero_iff : c.delay = .zero ↔ c.delay.nanos = 0 := by
  rw [Span.zero, Span.mk.injEq]

/-- Time passes up to the deadline and not beyond. -/
theorem ask_of_elapsed {elapsed : Span} (h : elapsed.nanos = min checkTimeout.nanos (totalDelay before)) :
    (ask s elapsed c).1 = (if AnswersInTime before c then c.check s else some timeoutReason) ∧
      (ask s elapsed c).2.nanos = min checkTimeout.nanos (totalDelay before + c.delay.nanos) := by
  have htimeout : checkTimeout.nanos < Span.longest.nanos := by decide
  have hdone : (elapsed.add c.delay).nanos = min (elapsed.nanos + c.delay.nanos) Span.longest.nanos := rfl
  have hanswers : (c.delay = .zero ∨ elapsed.add c.delay ≤ checkTimeout) ↔ AnswersInTime before c := by
    show (_ ∨ (elapsed.add c.delay).nanos ≤ checkTimeout.nanos) ↔ _
    rw [AnswersInTime, delay_eq_zero_iff]
    omega
  unfold ask
  by_cases hin : AnswersInTime before c
  · rw [if_pos (hanswers.mpr hin), if_pos hin]
    refine ⟨rfl, ?_⟩
    rw [AnswersInTime, delay_eq_zero_iff] at hin
    show (elapsed.add c.delay).nanos = _
    omega
  · have hleft : elapsed ≤ checkTimeout := by
      show elapsed.nanos ≤ checkTimeout.nanos
      omega
    rw [if_neg (mt hanswers.mp hin), if_neg hin, if_pos hleft]
    refine ⟨rfl, ?_⟩
    rw [AnswersInTime, delay_eq_zero_iff] at hin
    show checkTimeout.nanos = _
    omega

theorem elapsed_asked (s : Snapshot) (checkers : List Checker) :
    (asked s checkers).2.nanos = min checkTimeout.nanos (totalDelay checkers) := by
  induction checkers using List.reverseRecOn with
  | nil => rfl
  | append_singleton checkers c ih =>
    rw [asked_append, totalDelay_append]
    exact (ask_of_elapsed ih).2

theorem sorted_asked (s : Snapshot) (checkers : List Checker) : Dict.Sorted (asked s checkers).1 := by
  induction checkers using List.reverseRecOn with
  | nil => exact .nil
  | append_singleton checkers c ih =>
    rw [asked_append]
    exact ih.insert c.name _

/-! ### What is reported -/

/-- The checker that is asked last is reported, and of the others those that do not have its name. -/
theorem reported_append : Reported (checkers ++ [c']) before c ↔
    before = checkers ∧ c = c' ∨ c.name ≠ c'.name ∧ Reported checkers before c := by
  constructor
  · rintro ⟨after, heq, hlast⟩
    rcases List.eq_nil_or_concat after with rfl | ⟨after, c'', rfl⟩
    · obtain ⟨rfl, hc⟩ := List.append_inj' heq rfl
      exact .inl ⟨rfl, (List.cons.inj hc).1.symm⟩
    · rw [List.concat_eq_append, ← List.cons_append, ← List.append_assoc] at heq
      obtain ⟨rfl, hc⟩ := List.append_inj' heq rfl
      obtain rfl := (List.cons.inj hc).1
      obtain ⟨hafter, hne⟩ := List.forall_mem_append.mp (List.concat_eq_append ▸ hlast)
      exact .inr ⟨(List.forall_mem_singleton.mp hne).symm, after, rfl, hafter⟩
  · rintro (⟨rfl, rfl⟩ | ⟨hne, after, rfl, hafter⟩)
    · exact ⟨[], rfl, List.forall_mem_nil _⟩
    · refine ⟨after ++ [c'], by simp, List.forall_mem_append.mpr ⟨hafter, ?_⟩⟩
      exact List.forall_mem_singleton.mpr hne.symm

theorem mem_askAll_iff {d : String × Finding} : d ∈ askAll s checkers ↔
    ∃ before c, Reported checkers before c ∧
    d = (c.name, if AnswersInTime before c then c.check s else some timeoutReason) := by
  unfold askAll
  induction checkers using List.reverseRecOn with
  | nil =>
    refine ⟨fun hd => absurd hd List.not_mem_nil, ?_⟩
    rintro ⟨before, c, ⟨after, heq, -⟩, -⟩
    simp at heq
  | append_singleton checkers c' ih =>
    rw [asked_append, (sorted_asked s checkers).mem_insert_iff, ih, (ask_of_elapsed (elapsed_asked s checkers)).1]
    constructor
    · rintro (rfl | ⟨hne, before, c, hreported, rfl⟩)
      · exact ⟨checkers, c', reported_append.mpr (.inl ⟨rfl, rfl⟩), rfl⟩
      · exact ⟨before, c, reported_append.mpr (.inr ⟨hne, hreported⟩), rfl⟩
    · rintro ⟨before, c, hreported, rfl⟩
      rcases reported_append.mp hreported with ⟨rfl, rfl⟩ | ⟨hne, hreported⟩
      · exact .inl rfl
      · exact .inr ⟨hne, before, c, hreported, rfl⟩

theorem finding_eq_none_iff :
    (if AnswersInTime before c then c.check s else some timeoutReason) = none ↔ Passes s before c := by
  unfold Passes
  split <;> simp [*]

theorem all_pass_iff : ((askAll s checkers).all fun d => d.2.isNone) = true ↔
    ∀ before c, Reported checkers before c → Passes s before c := by
  simp only [List.all_eq_true, Option.isNone_iff_eq_none]
  constructor
  · intro hall before c hreported
    exact finding_eq_none_iff.mp (hall _ (mem_askAll_iff.mpr ⟨before, c, hreported, rfl⟩))
  · intro hall d hd
    obtain ⟨before, c, hreported, rfl⟩ := mem_askAll_iff.mp hd
    exact finding_eq_none_iff.mpr (hall before c hreported)

theorem hasUnhealthy_iff : HasUnhealthy (askAll s checkers) ↔
    ∃ before c, Reported checkers before c ∧ ¬Passes s before c := by
  have hstatus : ∀ f : Finding, Status.ofFinding f = .unhealthy ↔ f ≠ none := by
    rintro (_ | reason) <;> simp [Status.ofFinding]
  constructor
  · rintro ⟨d, hd, hunhealthy⟩
    obtain ⟨before, c, hreported, rfl⟩ := mem_askAll_iff.mp hd
    exact ⟨before, c, hreported, mt finding_eq_none_iff.mpr ((hstatus _).mp hunhealthy)⟩
  · rintro ⟨before, c, hreported, hfails⟩
    refine ⟨_, mem_askAll_iff.mpr ⟨before, c, hreported, rfl⟩,
      (hstatus _).mpr (mt finding_eq_none_iff.mp hfails)⟩

/-- Where no two checkers have one name all are reported. -/
theorem reported_of_nodup (h : (checkers.map Checker.name).Nodup) (heq : checkers = before ++ c :: after) :
    Reported checkers before c := by
  refine ⟨after, heq, fun c' hc' hname => ?_⟩
  rw [heq, List.map_append, List.map_cons] at h
  obtain ⟨-, hnodup, -⟩ := List.nodup_append.mp h
  exact (List.nodup_cons.mp hnodup).1 (hname ▸ List.mem_map_of_mem hc')

/-! ### Probes -/

/-- Readiness passes exactly if the status is healthy and the last checker of each name passes, and a
report on all checkers lists something as unhealthy exactly if one of these does not. These are all the
checkers there are if no two have one name. -/
theorem readiness_judges_reported (h : State) (now : Clock) (s : Snapshot) :
    ((h.readiness now s).passes = true ↔ h.status = .healthy ∧ ∀ before c, Reported h.checkers before c →
      Passes s before c) ∧
      (h.status = .healthy → (HasUnhealthy (h.readiness now s).report.details ↔
        ∃ before c, Reported h.checkers before c ∧ ¬Passes s before c)) ∧
      (HasUnhealthy (h.detailed now s).report.details ↔
        ∃ before c, Reported h.checkers before c ∧ ¬Passes s before c) ∧
      ((h.checkers.map Checker.name).Nodup → ∀ before c,
        Reported h.checkers before c ↔ ∃ after, h.checkers = before ++ c :: after) := by
  refine ⟨?_, fun hstatus => ?_, hasUnhealthy_iff, fun hnodup before c => ?_⟩
  · unfold State.readiness
    split
    · rename_i hstatus
      rw [← all_pass_iff]
      exact ⟨fun hall => ⟨hstatus, hall⟩, And.right⟩
    · rename_i hstatus
      simp [hstatus]
  · rw [State.readiness, if_pos hstatus]
    exact hasUnhealthy_iff
  · exact ⟨fun ⟨after, heq, _⟩ => ⟨after, heq⟩, fun ⟨_, heq⟩ => reported_of_nodup hnodup heq⟩

/-- Two checkers that each need more than half of the time, and one that answers at once when it is over. -/
theorem readiness_judges_reported_late :
    let slow (name : String) : Checker := { name, delay := .ofSeconds 3, check := fun _ => none }
    let h : State :=
      { status := .healthy, checkers := [slow "a", slow "b", { name := "c", check := fun _ => none }], started := 0,
        version := "" }
    h.status = .healthy ∧ (h.checkers.map Checker.name).Nodup ∧ ∀ now s, (h.readiness now s).passes = false ∧
      HasUnhealthy (h.readiness now s).report.details ∧ HasUnhealthy (h.detailed now s).report.details := by
  intro slow h
  have hnodup : (h.checkers.map Checker.name).Nodup := by decide
  refine ⟨rfl, hnodup, fun now s => ?_⟩
  obtain ⟨hpasses, hready, hdetailed, hall⟩ := readiness_judges_reported h now s
  have hreported : Reported h.checkers [slow "a"] (slow "b") := (hall hnodup _ _).mpr ⟨_, rfl⟩
  have hlate : ¬Passes s [slow "a"] (slow "b") := fun hin => absurd hin.1 (by decide)
  refine ⟨Bool.eq_false_iff.mpr fun hpass => hlate ((hpasses.mp hpass).2 _ _ hreported), ?_, ?_⟩
  · exact (hready rfl).mpr ⟨_, _, hreported, hlate⟩
  · exact hdetailed.mpr ⟨_, _, hreported, hlate⟩

/-- A checker that fails and one that passes under the same name. -/
theorem failure_hidden_by_namesake :
    let broken : Checker := { name := "database", check := fun _ => some "broken" }
    let h : State :=
      { status := .healthy, checkers := [broken, { name := "database", check := fun _ => none }], started := 0,
        version := "" }
    ∀ now s, broken ∈ h.checkers ∧ broken.check s = some "broken" ∧ (h.readiness now s).passes = true ∧
      ¬HasUnhealthy (h.readiness now s).report.details ∧ ¬HasUnhealthy (h.detailed now s).report.details := by
  intro broken h now s
  have hdetails : askAll s h.checkers = [("database", none)] := by simp [h, broken, askAll, asked, ask, Dict.insert]
  have hnone : ¬HasUnhealthy (askAll s h.checkers) := by
    rw [hdetails]
    simp [HasUnhealthy, Status.ofFinding]
  have hpasses : (h.readiness now s).passes = true := by
    show ((askAll s h.checkers).all fun d => d.2.isNone) = true
    rw [hdetails]
    rfl
  exact ⟨List.mem_cons_self, rfl, hpasses, hnone, hnone⟩

end AdmissionWatch.Health
