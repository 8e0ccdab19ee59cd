import AdmissionWatch.Proofs.Dispatch.Dispatcher
import AdmissionWatch.Proofs.Source.Errand
import AdmissionWatch.Proofs.Watcher.Pipeline
import AdmissionWatch.Watcher.Run

/-!
# Submissions on their way to the sink

Any number of passes over sources take their steps among those of the consumer and of a stop. Beside
the watcher runs a history: what was submitted under which identifier, which of these submissions
wait in the channel or are in hand, and with what the sink was called for which of them. Every step
keeps `Flows`: each submission that was queued is called for, in hand or waiting at most once, in
the order in which they were queued.
-/

namespace AdmissionWatch.Watcher

open Time Telemetry Dispatch Source

/-! ### The end of a dispatch -/

section
variable (w : Watcher) (reply : Except Failure Unit) (now : Clock)

theorem finishWith_inHand : (w.finishWith reply now).pipeline.inHand = [] := by
  unfold finishWith
  split
  · exact Pipeline.finish_inHand _ _ _
  · rename_i hnot
    exact Pipeline.inHand_of_not_dispatching hnot

@[simp] theorem finishWith_queue : (w.finishWith reply now).pipeline.intake.queue = w.pipeline.intake.queue := by
  unfold finishWith
  split
  · exact Pipeline.finish_queue _ _ _
  · rfl

@[simp] theorem finishWith_window : (w.finishWith reply now).pipeline.intake.window = w.pipeline.intake.window := by
  unfold finishWith
  split
  · exact Pipeline.finish_window _ _ _
  · rfl

end

/-! ### Traffic -/

/-- A submission, and what was answered to it. -/
structure Submitted where
  id : String
  event : Event
  moment : Moment
  /-- Whether the channel was open and had room when it was made. -/
  hasRoom : Bool
  outcome : Submission

/-- The submission of an event to an intake. -/
def Submitted.to (i : Intake) (moment : Moment) (id : String) (event : Event) : Submitted where
  id
  event
  moment
  hasRoom := !i.isClosed && decide (i.queue.length < i.capacity)
  outcome := (i.submit id event moment).1

/-- A watcher with passes over sources that are not over, and its history. -/
structure Traffic where
  watcher : Watcher
  errands : List Errand := []
  /-- Every submission, in order. -/
  submitted : List Submitted := []
  /-- The submissions of the events that wait. -/
  waiting : List Submitted := []
  /-- The submission of the event in hand. -/
  inHand : Option Submitted := none
  /-- The payloads that the sink was called with, each with the submission that it was called for. -/
  delivered : List (Submitted × Violation) := []

namespace Traffic

/-- The intake that all sources submit to. -/
def intake (t : Traffic) : Intake := t.watcher.pipeline.intake

/-- The consumer of the watcher. -/
def consumer (t : Traffic) : Consumer := t.watcher.pipeline.consumer

/-- A watcher to which nothing was submitted. -/
def create (w : Watcher) (capacity : Nat) (ttl : Span) (maxBytes : Nat) (now : Moment) : Traffic :=
  { watcher := { w with pipeline := { intake := .create capacity (.empty ttl maxBytes) now } } }

/-- The submissions that were answered with `queued`, in order. -/
def queued (t : Traffic) : List Submitted :=
  t.submitted.filter fun s => s.outcome == .queued

/-- Enters a submission in the history. -/
def note (t : Traffic) (s : Submitted) : Traffic :=
  { t with
    submitted := t.submitted ++ [s]
    waiting := if s.outcome = .queued then t.waiting ++ [s] else t.waiting }

/-- What the sink is called with for the event in hand when its time has come. -/
def calls (t : Traffic) : List (Submitted × Violation) :=
  match t.inHand, t.watcher.ready? with
  | some s, some (_, payloads) => payloads.map fun v => (s, v)
  | _, _ => []

/-- A pass takes its next step. What it submits is entered in the history. -/
def go (t : Traffic) (position : Nat) (now : Clock) (reply : (c : LogGroup.Call) → c.Reply)
    (isCut : Bool) : Traffic :=
  match t.errands[position]? with
  | none => t
  | some errand =>
    let next := errand.go now reply isCut t.intake
    let after := { t with errands := t.errands.set position next.1, watcher := t.watcher.withIntake next.2 }
    match errand.found? now.date with
    | some (id, event) => after.note (.to t.intake now.moment id event)
    | none => after

/-- The consumer takes an event. The submission of it is the first that waits. -/
def take (t : Traffic) (now : Now) : Traffic :=
  let after := { t with watcher := { t.watcher with pipeline := t.watcher.pipeline.take now } }
  match t.consumer, t.waiting with
  | .waiting, s :: rest => { after with waiting := rest, inHand := some s }
  | _, _ => after

/-- A step of a source, of the consumer, or of the one who starts and stops the watcher. -/
inductive Step where
  /-- A pass over an audit log begins, with whatever is in the file. -/
  | scan (content : List UInt8)
  /-- A poll of policy events begins, with whatever is listed. -/
  | list (versions : PolicyEvents.Versions) (listed : List Json)
  /-- A poll of a log group begins. -/
  | poll (settings : LogGroup.Settings) (date : Instant) (cursors : LogGroup.Cursors)
  /-- A pass takes its next step, in which a call is answered somehow. -/
  | go (position : Nat) (now : Clock) (reply : (c : LogGroup.Call) → c.Reply) (isCut : Bool)
  | start
  | take (now : Now)
  /-- The sink is called for the event in hand, if that is due, and answers; its dispatch ends. -/
  | finish (reply : Except Failure Unit) (now : Clock)
  /-- The watcher is stopped, before or after the sink was called for the event in hand. -/
  | stop (wasCalled : Bool)

/-- What a step does to the watcher and to the account of it. -/
def step (t : Traffic) : Step → Traffic
  | .scan content => { t with errands := t.errands ++ [.ofContent content] }
  | .list versions listed => { t with errands := t.errands ++ [.ofListing versions listed] }
  | .poll settings date cursors => { t with errands := t.errands ++ [.ofLogGroup settings date cursors] }
  | .go position now reply isCut => t.go position now reply isCut
  | .start => { t with watcher := { t.watcher with pipeline := t.watcher.pipeline.start } }
  | .take now => t.take now
  | .finish reply now =>
    { t with watcher := t.watcher.finishWith reply now, inHand := none, delivered := t.delivered ++ t.calls }
  | .stop wasCalled =>
    { t with
      watcher := t.watcher.endStop
      waiting := []
      inHand := none
      delivered := if wasCalled then t.delivered ++ t.calls else t.delivered }

/-- Steps in turn. -/
def run (t : Traffic) (steps : List Step) : Traffic := steps.foldl step t

/-! ### Submissions -/

theorem note_queued (t : Traffic) {s : Submitted} (h : s.outcome = .queued) :
    (t.note s).queued = t.queued ++ [s] ∧ (t.note s).waiting = t.waiting ++ [s] := by
  refine ⟨?_, if_pos h⟩
  show (t.submitted ++ [s]).filter _ = _
  rw [List.filter_append, List.filter_cons_of_pos (by simp [h])]
  rfl

theorem note_not_queued (t : Traffic) {s : Submitted} (h : s.outcome ≠ .queued) :
    (t.note s).queued = t.queued ∧ (t.note s).waiting = t.waiting := by
  refine ⟨?_, if_neg h⟩
  show (t.submitted ++ [s]).filter _ = _
  rw [List.filter_append, List.filter_cons_of_neg (by simp [h])]
  exact List.append_nil _

/-- A step of a pass makes one submission or none, and does nothing else to the watcher or to the
history. -/
theorem go_cases (t : Traffic) (position : Nat) (now : Clock) (reply : (c : LogGroup.Call) → c.Reply) (isCut : Bool) :
    ∃ errands, t.go position now reply isCut = { t with errands } ∨
      ∃ id event, t.go position now reply isCut =
        note { t with errands, watcher := t.watcher.withIntake (t.intake.submit id event now.moment).2 }
          (.to t.intake now.moment id event) := by
  unfold go
  cases t.errands[position]? with
  | none => exact ⟨t.errands, .inl rfl⟩
  | some errand =>
    refine ⟨t.errands.set position (errand.go now reply isCut t.intake).1, ?_⟩
    simp only [Errand.go_intake]
    cases errand.found? now.date with
    | none => exact .inl rfl
    | some found => exact .inr ⟨found.1, found.2, rfl⟩

/-- The history of submissions only grows. -/
theorem submitted_step (t : Traffic) (s : Step) : t.submitted <+: (t.step s).submitted := by
  cases s with
  | go position now reply isCut =>
    show t.submitted <+: (t.go position now reply isCut).submitted
    obtain ⟨errands, hnone | ⟨id, event, hone⟩⟩ := t.go_cases position now reply isCut
    · exact hnone ▸ List.prefix_rfl
    · rw [hone]
      exact List.prefix_append _ _
  | take now =>
    show t.submitted <+: (t.take now).submitted
    unfold take
    dsimp only
    split <;> exact List.prefix_rfl
  | _ => exact List.prefix_rfl

theorem submitted_run (t : Traffic) (steps : List Step) : t.submitted <+: (t.run steps).submitted := by
  unfold run
  induction steps generalizing t with
  | nil => exact List.prefix_rfl
  | cons s rest ih => exact (t.submitted_step s).trans (ih (t.step s))

/-! ### What every step keeps -/

/-- The history tells what waits and what is in hand, and a submission that was queued is on its way,
or was delivered, once at most. -/
structure Flows (t : Traffic) : Prop where
  waiting : t.waiting.map (·.event) = t.intake.queue
  inHand : t.inHand.toList.map (·.event) = t.watcher.pipeline.inHand
  order : (t.delivered.map Prod.fst ++ t.inHand.toList ++ t.waiting).Sublist t.queued
  /-- The sink was called with what the events deserve. -/
  payload : ∀ d ∈ t.delivered, IsPayloadOf d.1.event d.2

theorem flows_create (w : Watcher) (capacity : Nat) (ttl : Span) (maxBytes : Nat) (now : Moment) :
    Flows (create w capacity ttl maxBytes now) where
  waiting := rfl
  inHand := rfl
  order := List.nil_sublist _
  payload d hd := by cases hd

namespace Flows
variable {t : Traffic}

/-- A submission that is queued comes last of those that wait, and last of those that were queued. -/
theorem submit (h : Flows t) (errands : List Errand) (id : String) (event : Event) (now : Moment) :
    Flows (note { t with errands, watcher := t.watcher.withIntake (t.intake.submit id event now).2 }
      (.to t.intake now id event)) := by
  have hqueue := t.intake.submit_queue id event now
  by_cases hqueued : (t.intake.submit id event now).1 = .queued
  · rw [if_pos hqueued] at hqueue
    obtain ⟨hall, hwait⟩ := note_queued
      { t with errands, watcher := t.watcher.withIntake (t.intake.submit id event now).2 }
      (s := .to t.intake now id event) hqueued
    refine ⟨?_, h.inHand, ?_, h.payload⟩
    · rw [hwait, List.map_append, h.waiting]
      exact hqueue.symm
    · rw [hwait, hall, ← List.append_assoc]
      exact h.order.append (List.Sublist.refl _)
  · rw [if_neg hqueued] at hqueue
    obtain ⟨hall, hwait⟩ := note_not_queued
      { t with errands, watcher := t.watcher.withIntake (t.intake.submit id event now).2 }
      (s := .to t.intake now id event) hqueued
    refine ⟨?_, h.inHand, ?_, h.payload⟩
    · rw [hwait]
      exact h.waiting.trans hqueue.symm
    · rw [hwait, hall]
      exact h.order

theorem go (h : Flows t) (position : Nat) (now : Clock) (reply : (c : LogGroup.Call) → c.Reply) (isCut : Bool) :
    Flows (t.go position now reply isCut) := by
  obtain ⟨errands, hnone | ⟨id, event, hone⟩⟩ := t.go_cases position now reply isCut
  · rw [hnone]
    exact { h with }
  · rw [hone]
    exact h.submit errands id event now.moment

theorem start (h : Flows t) : Flows (t.step .start) where
  waiting := h.waiting.trans (congrArg Intake.queue t.watcher.pipeline.start_intake).symm
  inHand := h.inHand.trans t.watcher.pipeline.start_inHand.symm
  order := h.order
  payload := h.payload

/-- What is taken is the first that waits, and is in hand from then on. -/
theorem take (h : Flows t) (now : Now) : Flows (t.take now) := by
  have hwaiting := h.waiting
  unfold Traffic.take
  split
  · rename_i s rest hconsumer hwaits
    have hqueue : t.watcher.pipeline.intake.queue = s.event :: rest.map (·.event) := by
      rw [hwaits] at hwaiting
      exact hwaiting.symm
    have hnone : t.inHand = none := by
      have hhand : t.inHand.toList.map (·.event) = [] :=
        h.inHand.trans (Pipeline.inHand_of_not_dispatching fun e since hd => by cases hconsumer.symm.trans hd)
      simpa using hhand
    have htake := Pipeline.take_waiting hconsumer hqueue now
    refine ⟨?_, ?_, ?_, h.payload⟩
    · show _ = (t.watcher.pipeline.take now).intake.queue
      rw [htake]
      rfl
    · show _ = (t.watcher.pipeline.take now).inHand
      rw [htake]
      rfl
    · have horder := h.order
      rw [hnone, hwaits, Option.toList_none, List.append_nil] at horder
      show (t.delivered.map Prod.fst ++ [s] ++ rest).Sublist t.queued
      rw [List.append_assoc]
      exact horder
  · rename_i hnot
    -- Either the consumer does not wait for an event, or there is none.
    have hsame : t.watcher.pipeline.take now = t.watcher.pipeline := by
      by_cases hconsumer : t.watcher.pipeline.consumer = .waiting
      · refine Pipeline.take_nil ?_ now
        cases hwaits : t.waiting with
        | nil =>
          rw [hwaits] at hwaiting
          exact hwaiting.symm
        | cons s rest => exact absurd hwaits (hnot s rest hconsumer)
      · exact Pipeline.take_of_not_waiting hconsumer now
    rw [hsame]
    exact h

/-- The sink is called once at most for what is in hand, and with what its event deserves. -/
theorem calls (h : Flows t) :
    t.calls = [] ∨ ∃ s v, t.inHand = some s ∧ IsPayloadOf s.event v ∧ t.calls = [(s, v)] := by
  unfold Traffic.calls Watcher.ready?
  cases hhand : t.inHand with
  | none => exact .inl rfl
  | some s =>
    have hevent := h.inHand
    rw [hhand] at hevent
    cases hconsumer : t.watcher.pipeline.consumer with
    | dispatching e since =>
      have hs : s.event = e := by simpa [Pipeline.inHand, hconsumer] using hevent
      rcases t.watcher.dispatcher.dispatch_sent (fun _ => .ok ()) e since.timer with hnone | ⟨v, hdue, hone⟩
      · exact .inl (by simp [dispatched, hnone])
      · exact .inr ⟨s, v, rfl, hs ▸ hdue, by simp [dispatched, hone]⟩
    | _ => exact .inl rfl

/-- What is in hand is delivered at the end of its dispatch or never. -/
theorem order_calls (h : Flows t) : ((t.delivered ++ t.calls).map Prod.fst ++ t.waiting).Sublist t.queued := by
  refine List.Sublist.trans ?_ h.order
  rw [List.map_append]
  refine ((List.Sublist.refl _).append ?_).append (List.Sublist.refl _)
  rcases h.calls with hnone | ⟨s, v, hhand, -, hone⟩
  · rw [hnone]
    exact List.nil_sublist _
  · rw [hone, hhand]
    exact List.Sublist.refl _

theorem payload_calls (h : Flows t) : ∀ d ∈ t.delivered ++ t.calls, IsPayloadOf d.1.event d.2 := by
  intro d hd
  rcases List.mem_append.mp hd with hd | hd
  · exact h.payload d hd
  · rcases h.calls with hnone | ⟨s, v, -, hdue, hone⟩
    · rw [hnone] at hd
      cases hd
    · rw [hone] at hd
      obtain rfl := List.mem_singleton.mp hd
      exact hdue

theorem finish (h : Flows t) (reply : Except Failure Unit) (now : Clock) : Flows (t.step (.finish reply now)) where
  waiting := h.waiting.trans (finishWith_queue t.watcher reply now).symm
  inHand := (finishWith_inHand t.watcher reply now).symm
  order := by
    have horder := h.order_calls
    rw [← List.append_nil (List.map _ _)] at horder
    exact horder
  payload := h.payload_calls

theorem stop (h : Flows t) (wasCalled : Bool) : Flows (t.step (.stop wasCalled)) where
  waiting := t.watcher.pipeline.stop_queue.symm
  inHand := rfl
  order := by
    show ((if wasCalled then t.delivered ++ t.calls else t.delivered).map Prod.fst ++ [] ++ []).Sublist t.queued
    rw [List.append_nil, List.append_nil]
    split
    · exact (List.sublist_append_left _ _).trans h.order_calls
    · exact ((List.sublist_append_left _ _).trans (List.sublist_append_left _ _)).trans h.order
  payload := by
    show ∀ d ∈ (if wasCalled then t.delivered ++ t.calls else t.delivered), _
    split
    · exact h.payload_calls
    · exact h.payload

/-- Every step keeps the history true. -/
theorem step (h : Flows t) (s : Step) : Flows (t.step s) := by
  cases s with
  | go position now reply isCut => exact h.go position now reply isCut
  | start => exact h.start
  | take now => exact h.take now
  | finish reply now => exact h.finish reply now
  | stop wasCalled => exact h.stop wasCalled
  | _ => exact { h with }

theorem run (h : Flows t) (steps : List Step) : Flows (t.run steps) := by
  unfold Traffic.run
  induction steps generalizing t with
  | nil => exact h
  | cons s rest ih => exact ih (h.step s)

end Flows

end Traffic

end AdmissionWatch.Watcher
