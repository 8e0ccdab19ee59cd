import AdmissionWatch.Proofs.Basics
import AdmissionWatch.Proofs.Dedup.Readmission
import AdmissionWatch.Proofs.Watcher.Pipeline
import Mathlib.Logic.Function.Iterate

/-!
# Submissions at the same time

Any number of submissions run beside each other and beside the consumer, and between two actions of
one of them all others may act. A submission counts its event into the channel before it offers it,
and out again if the channel refuses; the consumer takes an event before it counts it out. So the
counter runs ahead of the queue by the events that are announced and by the one that is taken but
still counted in. Every action keeps this sum (`Counted`), by which a decrement always finds
something to take away.
-/

namespace AdmissionWatch.Watcher

open Time Telemetry Dedup

/-! ### What submits and what consumes -/

/-- How far a submission has come. One action leads from each stage to the next. -/
inductive Submitting where
  /-- It asks the window next. -/
  | asking (id : String) (event : Event)
  /-- It is let in and counts the event into the channel next. -/
  | announcing (event : Event)
  /-- It offers the event to the channel next. -/
  | offering (event : Event)
  /-- The channel refused the event, which is counted out of it next. -/
  | retracting (outcome : Submission)
  /-- It counts the event as dropped next. -/
  | dropping
  | answered (outcome : Submission)

namespace Submitting

/-- The next action of a submission. -/
def act (i : Intake) (now : Moment) : Submitting → Submitting × Intake
  | asking id e =>
    let (isNew, i) := i.know id now
    (if isNew then announcing e else answered .duplicate, i)
  | announcing e => (offering e, i.announce)
  | offering e =>
    match i.offer e with
    | (.queued, i) => (answered .queued, i)
    | (refusal, i) => (retracting refusal, i)
  | retracting .dropped => (dropping, i.retract)
  | retracting outcome => (answered outcome, i.retract)
  | dropping => (answered .dropped, i.record .dropped)
  | answered outcome => (answered outcome, i)

/-- The check that the next action of a submission makes, if it makes one. -/
def checks (i : Intake) (now : Moment) : Submitting → List Check
  | asking id _ => [⟨id, now, (i.know id now).1⟩]
  | _ => []

/-- Whether an event is counted into the channel that is not there and may yet be refused. -/
def isAnnounced : Submitting → Bool
  | offering _ | retracting _ => true
  | _ => false

/-- Whether a submission is over. -/
def isAnswered : Submitting → Bool
  | answered _ => true
  | _ => false

end Submitting

/-- How far the consumer has come. -/
inductive Consuming where
  | unstarted
  | waiting
  /-- It has an event that is counted out of the channel next. -/
  | taking (event : Event)
  | dispatching (event : Event)
  /-- A dispatch came to its end, which is counted next. -/
  | ending (ending : Ending) (length : Span)
  /-- The time that the dispatch took is counted next. -/
  | timing (length : Span)
  /-- The event is counted as processed next. -/
  | processing
  /-- A dispatch was cut off, and its event is counted as dropped next. -/
  | abandoning
  /-- It closes the channel next. -/
  | closing
  /-- The channel is closed, and the next event is taken out of it. -/
  | draining
  /-- It has such an event, which is counted out of the channel next. -/
  | discarding
  /-- That event is counted as dropped next. -/
  | dropping
  | finished

namespace Consuming

/-- The next action of the consumer, if there is one; a dispatch ends in that way after that time. -/
def act (i : Intake) (how : Ending) (length : Span) : Consuming → Consuming × Intake
  | waiting =>
    match i.take? with
    | some (e, i) => (taking e, i)
    | none => (waiting, i)
  | taking e => (dispatching e, i.record .left)
  | dispatching _ => (ending how length, i)
  | ending how length => (timing length, i.record how.change)
  | timing length => (processing, i.record (.took length))
  | processing => (waiting, i.record .processed)
  | abandoning => (closing, i.record .dropped)
  | closing => (draining, i.close)
  | draining =>
    match i.take? with
    | some (_, i) => (discarding, i)
    | none => (finished, i)
  | discarding => (dropping, i.record .left)
  | dropping => (draining, i.record .dropped)
  | unstarted => (unstarted, i)
  | finished => (finished, i)

/-- What the consumer does when it is told to stop. It listens only where it waits for something. -/
def told : Consuming → Consuming
  | unstarted | waiting => closing
  | dispatching _ => abandoning
  | c => c

/-- How many events are out of the channel and still counted in. -/
def held : Consuming → Nat
  | taking _ | discarding => 1
  | _ => 0

/-- Whether the consumer is not in the middle of a step. -/
def isBetween : Consuming → Bool
  | unstarted | waiting | dispatching _ | finished => true
  | _ => false

end Consuming

/-! ### What nothing interrupts -/

/-- A submission whose actions follow each other is one that submits at once. -/
theorem Submitting.act_submit (i : Intake) (id : String) (e : Event) (now : Moment) :
    (fun p : Submitting × Intake => p.1.act p.2 now)^[5] (asking id e, i) =
      (answered (i.submit id e now).1, (i.submit id e now).2) := by
  show (fun p : Submitting × Intake => p.1.act p.2 now)^[4] (act i now (asking id e)) = _
  have hknow : i.know id now = ((i.window.enter id now).1, i.looked id now) := rfl
  rw [Intake.submit_eq]
  simp only [act, hknow]
  cases (i.window.enter id now).1 with
  | false => rfl
  | true =>
    by_cases hclosed : i.isClosed = true
    · simp [Function.iterate_succ, Intake.announce, Intake.offer, Intake.retract, hclosed]
    · by_cases hroom : i.queue.length < i.capacity
      · simp [Function.iterate_succ, Intake.announce, Intake.offer, hclosed, hroom]
      · simp [Function.iterate_succ, Intake.announce, Intake.offer, Intake.retract, hclosed, hroom]

/-- A consumer whose actions follow each other takes and counts as the pipeline does. -/
theorem Consuming.act_take {i : Intake} {e : Event} {rest : List Event} (hqueue : i.queue = e :: rest) (how : Ending)
    (length : Span) :
    (fun p : Consuming × Intake => p.1.act p.2 how length)^[2] (waiting, i) =
        (dispatching e, { i with queue := rest }.record .left) ∧
      (fun p : Consuming × Intake => p.1.act p.2 how length)^[4] (dispatching e, i) =
        (waiting, ((i.record how.change).record (.took length)).record .processed) := by
  refine ⟨?_, rfl⟩
  simp [Function.iterate_succ, act, Intake.take?, hqueue]

/-- A consumer that drains the channel and is not interrupted discards what is in it. -/
theorem Consuming.act_discard (i : Intake) (how : Ending) (length : Span) :
    (fun p : Consuming × Intake => p.1.act p.2 how length)^[3 * i.queue.length + 2] (closing, i) =
      (finished, i.discard) := by
  have hdrain : ∀ (queue : List Event) (j : Intake), j.queue = queue →
      (fun p : Consuming × Intake => p.1.act p.2 how length)^[3 * queue.length + 1] (draining, j) =
        (finished, queue.foldl (fun j _ => (j.record .left).record .dropped) { j with queue := [] }) := by
    intro queue
    induction queue with
    | nil =>
      intro j hj
      obtain ⟨window, metrics, queue, capacity, isClosed⟩ := j
      obtain rfl : queue = [] := hj
      rfl
    | cons e rest ih =>
      intro j hj
      have htake : Intake.take? j = some (e, { j with queue := rest }) := by simp [Intake.take?, hj]
      rw [List.length_cons, show 3 * (rest.length + 1) + 1 = 3 * rest.length + 1 + 3 by omega,
        Function.iterate_add_apply]
      have hthree : (fun p : Consuming × Intake => p.1.act p.2 how length)^[3] (draining, j) =
          (draining, ({ j with queue := rest }.record .left).record .dropped) := by
        simp [Function.iterate_succ, act, htake]
      rw [hthree, ih _ rfl]
      rfl
  exact hdrain i.queue i.close rfl

/-! ### Scenes -/

/-- Submissions with the consumer at some moment. -/
structure Scene where
  intake : Intake
  submissions : List Submitting := []
  consumer : Consuming := .unstarted
  /-- The checks that were made, in order. -/
  checks : List Check := []

/-- What may happen next. -/
inductive Action where
  /-- A submission begins. -/
  | call (id : String) (event : Event)
  /-- The submission at a position acts; a check reads that moment. -/
  | submit (position : Nat) (now : Moment)
  | start
  | stop
  /-- The consumer acts. -/
  | consume (how : Ending) (length : Span)

namespace Scene

/-- A scene to which nothing was submitted yet, with an open channel. -/
def create (capacity : Nat) (window : Window) (now : Moment) : Scene :=
  { intake := .create capacity window now }

/-- One atomic action of a submission, of the consumer, or of the one who starts and stops the consumer. -/
def step (s : Scene) : Action → Scene
  | .call id e => { s with submissions := s.submissions ++ [.asking id e] }
  | .submit position now =>
    match s.submissions[position]? with
    | none => s
    | some a =>
      { s with
        intake := (a.act s.intake now).2
        submissions := s.submissions.set position (a.act s.intake now).1
        checks := s.checks ++ a.checks s.intake now }
  | .start =>
    match s.consumer with
    | .unstarted => { s with consumer := .waiting }
    | _ => s
  | .stop => { s with consumer := s.consumer.told }
  | .consume how length =>
    { s with
      intake := (s.consumer.act s.intake how length).2
      consumer := (s.consumer.act s.intake how length).1 }

/-- Actions in turn. -/
def run (s : Scene) (actions : List Action) : Scene := actions.foldl step s

/-- What the counter of the channel says. -/
def depth (s : Scene) : Nat := s.intake.metrics.counters.inChannel

/-- Whether an action counts an event out of the channel. -/
def countsOut (s : Scene) : Action → Bool
  | .submit position _ =>
    match s.submissions[position]? with
    | some (.retracting _) => true
    | _ => false
  | .consume .. => s.consumer.held == 1
  | _ => false

end Scene

/-! ### What an action does to the counter -/

section Act
variable {i : Intake} {others : Nat}

/-- Who counts an event out of the channel does so in the next action. -/
theorem Submitting.act_retracting (outcome : Submission) (now : Moment) :
    (act i now (retracting outcome)).2 = i.record .left := by
  cases outcome <;> rfl

theorem Consuming.act_of_held {c : Consuming} (hheld : c.held = 1) (how : Ending) (length : Span) :
    (c.act i how length).2 = i.record .left := by
  cases c with
  | taking e => rfl
  | discarding => rfl
  | _ => cases hheld

theorem Submitting.isAnnounced_of_isAnswered {a : Submitting} (hanswered : a.isAnswered = true) :
    a.isAnnounced = false := by
  cases a with
  | answered outcome => rfl
  | _ => cases hanswered

theorem Consuming.held_of_isBetween {c : Consuming} (hbetween : c.isBetween = true) : c.held = 0 := by
  cases c with
  | taking e => cases hbetween
  | discarding => cases hbetween
  | _ => rfl

/-- An action of a submission keeps the sum, whatever the others have announced and hold. -/
theorem Submitting.act_depth (a : Submitting) (now : Moment)
    (h : i.metrics.counters.inChannel = i.queue.length + others + a.isAnnounced.toNat) :
    (a.act i now).2.metrics.counters.inChannel =
      (a.act i now).2.queue.length + others + (a.act i now).1.isAnnounced.toNat := by
  cases a with
  | asking id e =>
    show i.metrics.counters.inChannel = i.queue.length + others + _
    rw [h]
    cases hnew : (i.know id now).1 <;> simp [act, hnew, isAnnounced]
  | announcing e =>
    show i.metrics.counters.inChannel + 1 = i.queue.length + others + 1
    rw [h]
    rfl
  | offering e =>
    by_cases hclosed : i.isClosed = true
    · simpa [act, Intake.offer, hclosed, isAnnounced] using h
    · by_cases hroom : i.queue.length < i.capacity
      · have hoffer : act i now (offering e) = (answered .queued, { i with queue := i.queue ++ [e] }) := by
          simp [act, Intake.offer, hclosed, hroom]
        rw [hoffer]
        simp only [isAnnounced, Bool.toNat_true, Bool.toNat_false, List.length_append, List.length_singleton] at h ⊢
        omega
      · simpa [act, Intake.offer, hclosed, hroom, isAnnounced] using h
  | retracting outcome =>
    have hdone : (act i now (retracting outcome)).1.isAnnounced = false := by cases outcome <;> rfl
    rw [act_retracting, hdone]
    show i.metrics.counters.inChannel - 1 = i.queue.length + others + 0
    rw [h]
    rfl
  | dropping => exact h
  | answered outcome => exact h

theorem Consuming.act_depth (c : Consuming) (how : Ending) (length : Span)
    (h : i.metrics.counters.inChannel = i.queue.length + others + c.held) :
    (c.act i how length).2.metrics.counters.inChannel =
      (c.act i how length).2.queue.length + others + (c.act i how length).1.held := by
  have htaken : ∀ e rest, i.queue = e :: rest →
      i.metrics.counters.inChannel = rest.length + others + 1 + c.held := by
    intro e rest hqueue
    rw [h, hqueue, List.length_cons]
    omega
  cases c with
  | waiting =>
    cases hqueue : i.queue with
    | nil => simpa [act, Intake.take?, hqueue] using h
    | cons e rest => simpa [act, Intake.take?, hqueue, held] using htaken e rest hqueue
  | draining =>
    cases hqueue : i.queue with
    | nil => simpa [act, Intake.take?, hqueue, held] using h
    | cons e rest => simpa [act, Intake.take?, hqueue, held] using htaken e rest hqueue
  | taking e =>
    show i.metrics.counters.inChannel - 1 = i.queue.length + others + 0
    rw [h]
    rfl
  | discarding =>
    show i.metrics.counters.inChannel - 1 = i.queue.length + others + 0
    rw [h]
    rfl
  | ending how _ => cases how <;> exact h
  | _ => exact h

theorem Submitting.act_window (a : Submitting) (now : Moment) :
    i.window.Answers (a.checks i now) (a.act i now).2.window := by
  cases a with
  | asking id e => exact ⟨rfl, rfl⟩
  | offering e =>
    unfold act Intake.offer
    by_cases hclosed : i.isClosed = true
    · simp [hclosed, checks, Window.Answers]
    · by_cases hroom : i.queue.length < i.capacity <;> simp [hclosed, hroom, checks, Window.Answers]
  | retracting outcome => cases outcome <;> rfl
  | _ => rfl

theorem Consuming.act_window (c : Consuming) (how : Ending) (length : Span) :
    (c.act i how length).2.window = i.window := by
  cases c with
  | waiting => cases hqueue : i.queue <;> simp [act, Intake.take?, hqueue]
  | draining => cases hqueue : i.queue <;> simp [act, Intake.take?, hqueue]
  | _ => rfl

end Act

/-! ### What every action keeps -/

namespace Scene

/-- The counter is ahead of the queue by what is announced and by what is held, and the checks so far
are what the window answered. -/
structure Counted (ttl : Span) (maxBytes : Nat) (s : Scene) : Prop where
  depth : s.depth = s.intake.queue.length + s.submissions.countP (·.isAnnounced) + s.consumer.held
  window : (Window.empty ttl maxBytes).Answers s.checks s.intake.window

theorem counted_create (capacity ttl maxBytes : _) (created : Moment) :
    Counted ttl maxBytes (create capacity (.empty ttl maxBytes) created) where
  depth := rfl
  window := rfl

namespace Counted
variable {ttl : Span} {maxBytes : Nat} {s : Scene}

theorem submit (h : Counted ttl maxBytes s) (position : Nat) (now : Moment) :
    Counted ttl maxBytes (s.step (.submit position now)) := by
  cases hat : s.submissions[position]? with
  | none =>
    have hstep : s.step (.submit position now) = s := by simp [step, hat]
    rw [hstep]
    exact h
  | some a =>
    have hstep : s.step (.submit position now) =
        { s with
          intake := (a.act s.intake now).2
          submissions := s.submissions.set position (a.act s.intake now).1
          checks := s.checks ++ a.checks s.intake now } := by
      simp [step, hat]
    obtain ⟨others, hbefore, hafter⟩ := exists_countP_set (p := (·.isAnnounced)) hat
    rw [hstep]
    refine ⟨?_, Window.answers_append.mpr ⟨_, h.window, a.act_window now⟩⟩
    have hdepth : s.intake.metrics.counters.inChannel =
        s.intake.queue.length + (others + s.consumer.held) + a.isAnnounced.toNat := by
      have hsum := h.depth
      rw [hbefore] at hsum
      show s.depth = _
      omega
    have hnext := a.act_depth now hdepth
    show (a.act s.intake now).2.metrics.counters.inChannel = _
    rw [hnext]
    simp only [hafter]
    omega

theorem consume (h : Counted ttl maxBytes s) (how : Ending) (length : Span) :
    Counted ttl maxBytes (s.step (.consume how length)) where
  depth := s.consumer.act_depth how length h.depth
  window := by
    show (Window.empty ttl maxBytes).Answers s.checks (s.consumer.act s.intake how length).2.window
    rw [Consuming.act_window]
    exact h.window

/-- A step that changes neither the intake nor the checks, and leaves as much announced and held. -/
theorem of_same {t : Scene} (h : Counted ttl maxBytes s) (hintake : t.intake = s.intake) (hchecks : t.checks = s.checks)
    (hsubmissions : t.submissions.countP (·.isAnnounced) = s.submissions.countP (·.isAnnounced))
    (hheld : t.consumer.held = s.consumer.held) : Counted ttl maxBytes t where
  depth := by
    show t.intake.metrics.counters.inChannel = _
    rw [hintake, hsubmissions, hheld]
    exact h.depth
  window := by
    rw [hintake, hchecks]
    exact h.window

theorem step (h : Counted ttl maxBytes s) (a : Action) : Counted ttl maxBytes (s.step a) := by
  cases a with
  | call id e =>
    refine h.of_same rfl rfl ?_ rfl
    show (s.submissions ++ [Submitting.asking id e]).countP _ = _
    rw [List.countP_append]
    rfl
  | submit position now => exact h.submit position now
  | start =>
    cases hconsumer : s.consumer with
    | unstarted =>
      have hstep : s.step .start = { s with consumer := .waiting } := by simp [Scene.step, hconsumer]
      rw [hstep]
      exact h.of_same rfl rfl rfl (by rw [hconsumer]; rfl)
    | _ =>
      have hstep : s.step .start = s := by simp [Scene.step, hconsumer]
      rw [hstep]
      exact h
  | stop =>
    refine h.of_same rfl rfl rfl ?_
    show s.consumer.told.held = s.consumer.held
    cases s.consumer <;> rfl
  | consume how length => exact h.consume how length

theorem run (h : Counted ttl maxBytes s) (actions : List Action) : Counted ttl maxBytes (s.run actions) := by
  unfold Scene.run
  induction actions generalizing s with
  | nil => exact h
  | cons a rest ih => exact ih (h.step a)

/-- Whoever counts an event out of the channel has it counted in. -/
theorem countsOut (h : Counted ttl maxBytes s) {a : Action} (hout : s.countsOut a = true) :
    (s.step a).depth + 1 = s.depth := by
  have hdepth := h.depth
  cases a with
  | submit position now =>
    cases hat : s.submissions[position]? with
    | none => simp [Scene.countsOut, hat] at hout
    | some b =>
      cases b with
      | retracting outcome =>
        obtain ⟨others, hbefore, -⟩ := exists_countP_set (p := Submitting.isAnnounced) hat
        have hstep : (s.step (.submit position now)).intake = s.intake.record .left := by
          simp [Scene.step, hat, Submitting.act_retracting]
        have hleft : (s.step (.submit position now)).depth = s.depth - 1 := by
          rw [Scene.depth, hstep]
          rfl
        rw [hbefore] at hdepth
        simp only [Submitting.isAnnounced, Bool.toNat_true] at hdepth
        omega
      | _ => simp [Scene.countsOut, hat] at hout
  | consume how length =>
    have hheld : s.consumer.held = 1 := by simpa [Scene.countsOut] using hout
    have hleft : (s.step (.consume how length)).depth = s.depth - 1 := by
      show (s.consumer.act s.intake how length).2.metrics.counters.inChannel = _
      rw [Consuming.act_of_held hheld]
      rfl
    omega
  | _ => cases hout

end Counted

end Scene

/-- However the actions of submissions and of the consumer follow each other, up to the end of a stop
and after it: the counter of the channel is the length of the queue with what is announced and what is
held; no decrement finds it at zero; it is never below the length of the queue, and equal to it when
nobody is in the middle of something. And a submission gets past the window a second time with an
identifier only if a check has found the entry of the first too old by then, or if others that were
let in after it need the bytes. -/
theorem interleavings_count (capacity : Nat) (ttl : Span) (maxBytes : Nat) (created : Moment) (actions : List Action) :
    let s := (Scene.create capacity (.empty ttl maxBytes) created).run actions
    s.depth = s.intake.queue.length + s.submissions.countP (·.isAnnounced) + s.consumer.held ∧
      (∀ a, s.countsOut a = true → (s.step a).depth + 1 = s.depth) ∧
      s.intake.queue.length ≤ s.depth ∧
      ((∀ a ∈ s.submissions, a.isAnswered = true) → s.consumer.isBetween = true →
        s.depth = s.intake.queue.length) ∧
      ∀ id first again before between after,
        s.checks = before ++ (⟨id, first, true⟩ :: between ++ [⟨id, again, true⟩]) ++ after →
          (∃ c ∈ between ++ [⟨id, again, true⟩], ttl ≤ first.elapsed c.moment) ∨
            letIn between ≠ [] ∧ maxBytes < totalCost ((id, first) :: letIn between) := by
  intro s
  have h : s.Counted ttl maxBytes := (Scene.counted_create capacity ttl maxBytes created).run actions
  refine ⟨h.depth, fun a => h.countsOut, ?_, fun hanswered hbetween => ?_,
    fun id first again before between after hchecks => ?_⟩
  · have hdepth := h.depth
    omega
  · have hnone : s.submissions.countP (·.isAnnounced) = 0 := List.countP_eq_zero.mpr fun a ha => by
      simp [Submitting.isAnnounced_of_isAnswered (hanswered a ha)]
    have hheld : s.consumer.held = 0 := Consuming.held_of_isBetween hbetween
    have hdepth := h.depth
    omega
  · have hanswers := h.window
    rw [hchecks] at hanswers
    obtain ⟨w, hmost, -⟩ := Window.answers_append.mp hanswers
    obtain ⟨w₀, hbefore, hpair⟩ := Window.answers_append.mp hmost
    obtain ⟨hcoherent, httl, hmax⟩ := (Window.Coherent.empty ttl maxBytes).answers hbefore
    have hagain := Window.let_in_again hcoherent hpair
    rw [httl, hmax] at hagain
    exact hagain

end AdmissionWatch.Watcher
