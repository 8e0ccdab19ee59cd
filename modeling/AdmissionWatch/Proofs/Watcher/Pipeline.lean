import AdmissionWatch.Proofs.Intake
import AdmissionWatch.Watcher.Pipeline

/-!
# What the steps of the pipeline do

What the consumer takes (`take_waiting`), how it ends a dispatch (`finish_dispatching`), and what a
stop leaves (`stop_eq`). A step that the consumer is not ready for does nothing.
-/

namespace AdmissionWatch.Watcher.Pipeline

open Time Telemetry

/-- The event that is being dispatched, if there is one. -/
def inHand (p : Pipeline) : List Event :=
  match p.consumer with
  | .dispatching event _ => [event]
  | _ => []

theorem inHand_of_not_dispatching {p : Pipeline} (hconsumer : ∀ e since, p.consumer ≠ .dispatching e since) :
    p.inHand = [] := by
  unfold inHand
  split
  · rename_i hd
    exact absurd hd (hconsumer _ _)
  · rfl

/-! ### Taking and ending -/

section
variable {p : Pipeline}

theorem take_waiting {e : Event} {rest : List Event} (hconsumer : p.consumer = .waiting)
    (hqueue : p.intake.queue = e :: rest) (now : Now) :
    p.take now = { intake := { p.intake with queue := rest }.record .left, consumer := .dispatching e now } := by
  simp [take, Intake.take?, hconsumer, hqueue]

theorem take_nil (hqueue : p.intake.queue = []) (now : Now) : p.take now = p := by
  simp [take, Intake.take?, hqueue]

theorem take_of_not_waiting (hconsumer : p.consumer ≠ .waiting) (now : Now) : p.take now = p := by
  unfold take
  split
  · contradiction
  · rfl

theorem finish_dispatching {e : Event} {since : Now} (hconsumer : p.consumer = .dispatching e since) (ending : Ending)
    (now : Clock) :
    p.finish ending now =
      { ((p.record ending.change).record (.took (since.moment.elapsed now.moment))).record .processed with
        consumer := .waiting } := by
  simp [finish, hconsumer]

theorem finish_of_not_dispatching (hconsumer : ∀ e since, p.consumer ≠ .dispatching e since) (ending : Ending)
    (now : Clock) :
    p.finish ending now = p := by
  unfold finish
  split
  · rename_i hd
    exact absurd hd (hconsumer _ _)
  · rfl

end

theorem publish_counters (updates : List Update) (m : Metrics) :
    (updates.foldl Metrics.publish m).counters = m.counters := by
  induction updates generalizing m with
  | nil => rfl
  | cons u rest ih => exact ih (m.publish u)

/-- The end of a dispatch moves two counters up: that of the events processed, and that of its
ending. -/
theorem ended_counters (p : Pipeline) (ending : Ending) (length : Span) :
    let before := p.intake.metrics.counters
    let after := (((p.record ending.change).record (.took length)).record .processed).intake.metrics.counters
    after.inChannel = before.inChannel ∧ after.dropped = before.dropped ∧ after.processed = before.processed + 1 ∧
      after.delivered + after.filtered + after.errors = before.delivered + before.filtered + before.errors + 1 := by
  refine ⟨?_, ?_, ?_, ?_⟩ <;> cases ending <;>
    simp only [Pipeline.record, Intake.record, Ending.change, Metrics.record, Metrics.withCounters, Metrics.publish]
  all_goals omega

/-- The end of a dispatch leaves nothing in hand. -/
theorem finish_inHand (p : Pipeline) (ending : Ending) (now : Clock) : (p.finish ending now).inHand = [] := by
  unfold finish
  split
  · rfl
  · rename_i hnot
    exact inHand_of_not_dispatching hnot

@[simp] theorem finish_queue (p : Pipeline) (ending : Ending) (now : Clock) :
    (p.finish ending now).intake.queue = p.intake.queue := by
  unfold finish
  split <;> rfl

@[simp] theorem finish_window (p : Pipeline) (ending : Ending) (now : Clock) :
    (p.finish ending now).intake.window = p.intake.window := by
  unfold finish
  split <;> rfl

@[simp] theorem start_intake (p : Pipeline) : p.start.intake = p.intake := by
  unfold start
  split <;> rfl

@[simp] theorem start_inHand (p : Pipeline) : p.start.inHand = p.inHand := by
  unfold start
  split
  · rename_i hconsumer
    simp [inHand, hconsumer]
  · rfl

@[simp] theorem take_window (p : Pipeline) (now : Now) : (p.take now).intake.window = p.intake.window := by
  unfold take Intake.take?
  cases p.consumer <;> cases p.intake.queue <;> rfl

/-! ### Stopping -/

section Stop
variable (p : Pipeline)

/-- A stop discards the queue of a pipeline in which the event in hand, if there is one, was counted
as dropped. -/
theorem stop_eq : ∃ i : Intake, p.stop = { intake := i.discard, consumer := .finished } ∧
    i.window = p.intake.window ∧ i.queue = p.intake.queue ∧ i.capacity = p.intake.capacity ∧
    i.metrics.counters =
      { p.intake.metrics.counters with dropped := p.intake.metrics.counters.dropped + p.inHand.length } := by
  unfold Pipeline.stop Pipeline.inHand
  cases p.consumer with
  | dispatching e since => exact ⟨p.intake.record .dropped, rfl, rfl, rfl, rfl, rfl⟩
  | _ => exact ⟨p.intake, rfl, rfl, rfl, rfl, rfl⟩

theorem stop_window : p.stop.intake.window = p.intake.window := by
  obtain ⟨i, hi, hwindow, -⟩ := stop_eq p
  rw [hi]
  exact i.discard_window.trans hwindow

theorem stop_queue : p.stop.intake.queue = [] := by
  obtain ⟨i, hi, -⟩ := stop_eq p
  rw [hi]
  exact i.discard_queue

theorem stop_isClosed : p.stop.intake.isClosed = true := by
  obtain ⟨i, hi, -⟩ := stop_eq p
  rw [hi]
  exact i.discard_isClosed

theorem stop_capacity : p.stop.intake.capacity = p.intake.capacity := by
  obtain ⟨i, hi, -, -, hcapacity, -⟩ := stop_eq p
  rw [hi]
  exact i.discard_capacity.trans hcapacity

theorem stop_counters : p.stop.intake.metrics.counters =
    { p.intake.metrics.counters with
      inChannel := p.intake.metrics.counters.inChannel - p.intake.queue.length
      dropped := p.intake.metrics.counters.dropped + p.inHand.length + p.intake.queue.length } := by
  obtain ⟨i, hi, -, hqueue, -, hcounters⟩ := stop_eq p
  rw [hi]
  show i.discard.metrics.counters = _
  rw [i.discard_counters, hcounters, hqueue]

end Stop

end AdmissionWatch.Watcher.Pipeline
