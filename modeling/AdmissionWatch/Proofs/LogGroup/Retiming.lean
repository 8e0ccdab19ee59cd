import AdmissionWatch.Proofs.Dedup.Retiming
import AdmissionWatch.Proofs.Intake
import AdmissionWatch.Proofs.LogGroup.Course

/-!
# Courses at other times

The same session with the same answers, at readings of the clock that cannot be told apart by any entry
of the window: it submits the same records with the same outcomes and comes to the same result. The
intakes that it leaves are alike (`Intake.Alike`): they differ in the moments of entries and, where a
record has no time of its own, in the time of its event (`Course.retimed`).
-/

namespace AdmissionWatch

open Time

/-- Events that are the same, or those of one record at dates that correspond. -/
inductive Event.Alike (R : Clock → Clock → Prop) : Event → Event → Prop where
  | refl (e : Event) : Alike R e e
  | ofAudit {now now' : Clock} (h : R now now') (r : Audit.Record) (c : Category) (source : String) :
      Alike R (.ofAudit now.date r c source) (.ofAudit now'.date r c source)

/-- Intakes that differ in times only. -/
structure Intake.Alike (R : Clock → Clock → Prop) (M : Moment → Moment → Prop) (ttl : Span)
    (i j : Intake) : Prop where
  window : i.window.Alike M ttl j.window
  metrics : i.metrics = j.metrics
  queue : List.Forall₂ (Event.Alike R) i.queue j.queue
  capacity : i.capacity = j.capacity
  isClosed : i.isClosed = j.isClosed

/-- By readings that are related no entry can be told from its counterpart. -/
structure Retiming (R : Clock → Clock → Prop) (M : Moment → Moment → Prop) (ttl : Span) : Prop where
  moment : ∀ {now now'}, R now now' → M now.moment now'.moment
  live : ∀ {now now'}, R now now' → ∀ m m', M m m' →
    (m.elapsed now.moment < ttl ↔ m'.elapsed now'.moment < ttl)

namespace Intake.Alike
variable {R : Clock → Clock → Prop} {M : Moment → Moment → Prop} {ttl : Span} {i j : Intake} {now now' : Clock}

theorem record (h : Alike R M ttl i j) (change : Telemetry.Metrics.Change) :
    Alike R M ttl (i.record change) (j.record change) where
  window := h.window
  metrics := congrArg (·.record change) h.metrics
  queue := h.queue
  capacity := h.capacity
  isClosed := h.isClosed

theorem submit (h : Alike R M ttl i j) (ht : Retiming R M ttl) (hnow : R now now') (id : String) {e e' : Event}
    (he : Event.Alike R e e') :
    (i.submit id e now.moment).1 = (j.submit id e' now'.moment).1 ∧
      Alike R M ttl (i.submit id e now.moment).2 (j.submit id e' now'.moment).2 := by
  obtain ⟨hanswer, hwindow⟩ := h.window.enter id (ht.moment hnow) (ht.live hnow)
  have hlooked : Alike R M ttl (i.looked id now.moment) (j.looked id now'.moment) :=
    ⟨hwindow, h.metrics, h.queue, h.capacity, h.isClosed⟩
  have hlength : i.queue.length = j.queue.length := h.queue.length_eq
  rw [Intake.submit_eq, Intake.submit_eq, hanswer, h.isClosed, hlength, h.capacity]
  split
  · exact ⟨rfl, hlooked⟩
  · split
    · exact ⟨rfl, (hlooked.record _).record _⟩
    · split
      · have hentered := hlooked.record .entered
        exact ⟨rfl, hentered.window, hentered.metrics, List.rel_append h.queue (.cons he .nil), hentered.capacity,
          hentered.isClosed⟩
      · exact ⟨rfl, ((hlooked.record _).record _).record _⟩

end Intake.Alike

namespace LogGroup

open Source Session

section Messages
variable {R : Clock → Clock → Prop} {M : Moment → Moment → Prop} {ttl : Span} {now now' : Clock}

/-- Two passes with the same counts, and with intakes that are alike. -/
structure PassAlike (R : Clock → Clock → Prop) (M : Moment → Moment → Prop) (ttl : Span)
    (p q : Pass) : Prop where
  tally : p.tally = q.tally
  intake : p.intake.Alike R M ttl q.intake

theorem PassAlike.submitRecord {p q : Pass} (h : PassAlike R M ttl p q) (ht : Retiming R M ttl) (hnow : R now now')
    (source : String) (r : Audit.Record) :
    PassAlike R M ttl (p.submitRecord now source r) (q.submitRecord now' source r) := by
  unfold Pass.submitRecord
  split
  · rename_i c _
    split
    · exact h
    · obtain ⟨houtcome, hintake⟩ := h.intake.submit ht hnow r.auditId (.ofAudit hnow r c source)
      refine ⟨?_, hintake⟩
      dsimp only
      rw [houtcome, h.tally]
  · exact h

theorem PassAlike.readMessage {p q : Pass} (h : PassAlike R M ttl p q) (ht : Retiming R M ttl) (hnow : R now now')
    (message : String) : PassAlike R M ttl (readMessage now p message) (readMessage now' q message) := by
  have hcounted : PassAlike R M ttl { p with tally := p.tally.addRecord } { q with tally := q.tally.addRecord } :=
    ⟨congrArg Tally.addRecord h.tally, h.intake⟩
  unfold LogGroup.readMessage
  dsimp only
  split
  · exact hcounted.submitRecord ht hnow sourceName _
  · exact ⟨congrArg (fun t : Tally => t.addRecord.addMalformed) h.tally, h.intake⟩

theorem readMessages_alike {i j : Intake} (h : i.Alike R M ttl j) (ht : Retiming R M ttl) (hnow : R now now')
    (messages : List String) : PassAlike R M ttl (readMessages now i messages) (readMessages now' j messages) := by
  have hfold : ∀ p q : Pass, PassAlike R M ttl p q →
      PassAlike R M ttl (messages.foldl (readMessage now) p) (messages.foldl (readMessage now') q) := by
    induction messages with
    | nil => exact fun p q hpq => hpq
    | cons message rest ih => exact fun p q hpq => ih _ _ (hpq.readMessage ht hnow message)
  exact hfold _ _ ⟨rfl, h⟩

end Messages

/-- The same step by another reading of the clock. -/
inductive Interaction.Retimed (R : Clock → Clock → Prop) : Interaction → Interaction → Prop where
  | asked (c : Call) (reply : c.Reply) : Retimed R (.asked c reply) (.asked c reply)
  | paused (d : Span) (isCut : Bool) : Retimed R (.paused d isCut) (.paused d isCut)
  | handed {now now' : Clock} (h : R now now') (messages : List String) :
      Retimed R (.handed now messages) (.handed now' messages)

section Course
variable {R : Clock → Clock → Prop} {M : Moment → Moment → Prop} {ttl : Span} {α : Type} {x : Session α}
  {i i' j : Intake} {steps steps' : List Interaction} {a : α}

/-- What a session does it can do by other readings, with the same result. -/
theorem Session.Course.retimed (h : x.Course i steps a i') (ht : Retiming R M ttl)
    (hsteps : List.Forall₂ (Interaction.Retimed R) steps steps') (hij : i.Alike R M ttl j) :
    ∃ j', x.Course j steps' a j' ∧ i'.Alike R M ttl j' := by
  induction h generalizing steps' j with
  | done a i =>
    cases hsteps
    exact ⟨j, .done a j, hij⟩
  | ask _ ih =>
    cases hsteps with
    | cons hstep hrest =>
      cases hstep
      obtain ⟨j', hcourse, hend⟩ := ih hrest hij
      exact ⟨j', .ask hcourse, hend⟩
  | pause _ ih =>
    cases hsteps with
    | cons hstep hrest =>
      cases hstep
      obtain ⟨j', hcourse, hend⟩ := ih hrest hij
      exact ⟨j', .pause hcourse, hend⟩
  | @hand messages resume now i _ _ _ _ ih =>
    cases hsteps with
    | cons hstep hrest =>
      cases hstep with
      | handed hnow =>
        -- Only here does the clock show, and what the session is told are the counts.
        have hread := readMessages_alike hij ht hnow messages
        obtain ⟨j', hcourse, hend⟩ := ih hrest hread.intake
        rw [hread.tally] at hcourse
        exact ⟨j', .hand hcourse, hend⟩

end Course

end LogGroup

end AdmissionWatch
