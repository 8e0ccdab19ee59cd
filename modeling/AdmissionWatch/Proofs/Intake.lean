import AdmissionWatch.Intake

/-!
# What a submission does to the intake

A submission has one of four outcomes, and each of them changes the counters, the window and the
queue in its own way (`submit_eq`). Discarding the queue counts every event in it out of the channel
and as dropped (`discard_counters`).
-/

namespace AdmissionWatch.Intake

open Time Telemetry

section Record
variable (i : Intake) (change : Metrics.Change)

@[simp] theorem record_queue : (i.record change).queue = i.queue := rfl
@[simp] theorem record_capacity : (i.record change).capacity = i.capacity := rfl
@[simp] theorem record_isClosed : (i.record change).isClosed = i.isClosed := rfl
@[simp] theorem record_metrics : (i.record change).metrics = i.metrics.record change := rfl

end Record

/-- The intake after it has looked an identifier up. -/
def looked (i : Intake) (id : String) (now : Moment) : Intake :=
  { i with window := (i.window.enter id now).2 }

@[simp] theorem looked_queue (i : Intake) (id : String) (now : Moment) : (i.looked id now).queue = i.queue := rfl
@[simp] theorem looked_capacity (i : Intake) (id : String) (now : Moment) :
    (i.looked id now).capacity = i.capacity := rfl
@[simp] theorem looked_isClosed (i : Intake) (id : String) (now : Moment) :
    (i.looked id now).isClosed = i.isClosed := rfl

theorem submit_eq (i : Intake) (id : String) (e : Event) (now : Moment) :
    i.submit id e now =
      if (i.window.enter id now).1 = false then (.duplicate, i.looked id now)
      else if i.isClosed = true then (.closed, ((i.looked id now).record .entered).record .left)
      else if i.queue.length < i.capacity then
        (.queued, { (i.looked id now).record .entered with queue := i.queue ++ [e] })
      else (.dropped, (((i.looked id now).record .entered).record .left).record .dropped) := by
  unfold submit know
  cases hnew : (i.window.enter id now).1 with
  | false => simp [looked, hnew]
  | true =>
    have hlooked : { i with window := (i.window.enter id now).2 } = i.looked id now := rfl
    simp only [hnew, Bool.not_true, Bool.false_eq_true, ↓reduceIte, Bool.true_eq_false, hlooked]
    unfold announce offer retract
    by_cases hclosed : i.isClosed = true
    · simp [hclosed]
    · by_cases hroom : i.queue.length < i.capacity
      · simp [hclosed, hroom]
      · simp [hclosed, hroom]

/-- The window looks the identifier up, whatever becomes of the event. -/
theorem submit_window (i : Intake) (id : String) (e : Event) (now : Moment) :
    (i.submit id e now).2.window = (i.window.enter id now).2 := by
  rw [submit_eq]
  repeat' split
  all_goals rfl

/-- Only what the channel takes comes into the queue. -/
theorem submit_queue (i : Intake) (id : String) (e : Event) (now : Moment) :
    (i.submit id e now).2.queue = if (i.submit id e now).1 = .queued then i.queue ++ [e] else i.queue := by
  rw [submit_eq]
  repeat' split
  all_goals first | rfl | contradiction

/-- An event is a duplicate exactly when the window has its identifier. -/
theorem submit_duplicate (i : Intake) (id : String) (e : Event) (now : Moment) :
    (i.submit id e now).1 = .duplicate ↔ (i.window.enter id now).1 = false := by
  rw [submit_eq]
  cases (i.window.enter id now).1 with
  | false => simp
  | true =>
    simp only [Bool.true_eq_false, ↓reduceIte, iff_false]
    repeat' split
    all_goals simp

/-- What is no duplicate is taken by an open channel with room. -/
theorem submit_queued (i : Intake) (id : String) (e : Event) (now : Moment)
    (hnew : (i.submit id e now).1 ≠ .duplicate) (hopen : i.isClosed = false) (hroom : i.queue.length < i.capacity) :
    (i.submit id e now).1 = .queued := by
  have henter : (i.window.enter id now).1 = true := by simpa using mt (i.submit_duplicate id e now).mpr hnew
  rw [submit_eq]
  simp [henter, hopen, hroom]

/-- Counting events out of the channel and as dropped changes nothing but these counters. -/
theorem countDropped (events : List Event) (i : Intake) :
    let d := events.foldl (fun i _ => (i.record .left).record .dropped) i
    d.window = i.window ∧ d.queue = i.queue ∧ d.capacity = i.capacity ∧ d.isClosed = i.isClosed ∧
      d.metrics.counters =
        { i.metrics.counters with
          inChannel := i.metrics.counters.inChannel - events.length
          dropped := i.metrics.counters.dropped + events.length } := by
  induction events generalizing i with
  | nil => exact ⟨rfl, rfl, rfl, rfl, rfl⟩
  | cons e rest ih =>
    obtain ⟨hwindow, hqueue, hcapacity, hclosed, hcounters⟩ := ih ((i.record .left).record .dropped)
    refine ⟨hwindow, hqueue, hcapacity, hclosed, hcounters.trans ?_⟩
    simp only [record_metrics, Metrics.record, Metrics.setDepth, Metrics.withCounters, Metrics.publish,
      List.length_cons, Counters.mk.injEq, true_and, and_true]
    omega

theorem discard_window (i : Intake) : i.discard.window = i.window :=
  (countDropped i.queue { i.close with queue := [] }).1

theorem discard_queue (i : Intake) : i.discard.queue = [] :=
  (countDropped i.queue { i.close with queue := [] }).2.1

theorem discard_capacity (i : Intake) : i.discard.capacity = i.capacity :=
  (countDropped i.queue { i.close with queue := [] }).2.2.1

theorem discard_isClosed (i : Intake) : i.discard.isClosed = true :=
  (countDropped i.queue { i.close with queue := [] }).2.2.2.1

/-- Discarding the queue counts each event in it out of the channel and as dropped. -/
theorem discard_counters (i : Intake) :
    i.discard.metrics.counters =
      { i.metrics.counters with
        inChannel := i.metrics.counters.inChannel - i.queue.length
        dropped := i.metrics.counters.dropped + i.queue.length } :=
  (countDropped i.queue { i.close with queue := [] }).2.2.2.2

end AdmissionWatch.Intake
