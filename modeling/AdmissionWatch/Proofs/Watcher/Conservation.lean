import AdmissionWatch.Proofs.Watcher.Pipeline

/-!
# No event is lost to the counters

Submissions, the consumer and a stop take their steps in any order. An account follows the events
through them: which were queued, which the consumer took, which were dispatched to their end and
which a stop left behind. Every step keeps `Balanced`, by which what was queued is, in order, what
was processed, what is in hand, what waits and what was lost; the counters are the lengths of these.
-/

namespace AdmissionWatch.Watcher

open Time Telemetry

/-- A step of a pipeline: of those who submit, of its consumer, or of the one who starts and stops it. -/
inductive Pipeline.Step where
  /-- Someone submits an event under an identifier. -/
  | submit (id : String) (event : Event) (now : Clock)
  | start
  | take (now : Now)
  /-- The dispatch of an event ends with a result, and with what the dispatcher publishes. -/
  | finish (result : Except Failure Dispatch.Dispatched) (updates : List Update) (now : Clock)
  | stop

/-- A pipeline, and what became of the events in it. -/
structure Account where
  pipeline : Pipeline
  /-- The events whose submission was answered with `queued`, in order. -/
  queued : List Event := []
  /-- How many submissions were answered with `dropped`. -/
  turnedAway : Nat := 0
  /-- The events that were handed to the dispatcher, in order. -/
  handed : List Event := []
  /-- The events whose dispatch came to its end, in order. -/
  processed : List Event := []
  /-- The events that a stop left behind, in order. -/
  lost : List Event := []

namespace Account

/-- The account of a pipeline to which nothing was submitted. -/
def create (capacity : Nat) (window : Dedup.Window) (now : Moment) : Account :=
  { pipeline := { intake := .create capacity window now } }

/-- What a step does to the pipeline and to the account of it. -/
def step (a : Account) : Pipeline.Step → Account
  | .submit id e now =>
    let submitted := a.pipeline.submit id e now
    { a with
      pipeline := submitted.2
      queued := if submitted.1 = .queued then a.queued ++ [e] else a.queued
      turnedAway := if submitted.1 = .dropped then a.turnedAway + 1 else a.turnedAway }
  | .start => { a with pipeline := a.pipeline.start }
  | .take now =>
    { a with
      pipeline := a.pipeline.take now
      handed := match a.pipeline.consumer with
        | .waiting => a.handed ++ (a.pipeline.take now).inHand
        | _ => a.handed }
  | .finish result updates now =>
    { a with
      pipeline := (a.pipeline.publish updates).finish (.ofResult result) now
      processed := a.processed ++ a.pipeline.inHand }
  | .stop =>
    { a with
      pipeline := a.pipeline.stop
      lost := a.lost ++ a.pipeline.inHand ++ a.pipeline.intake.queue }

/-- Steps in turn. -/
def run (a : Account) (steps : List Pipeline.Step) : Account := steps.foldl step a

/-- What the pipeline has counted. -/
def counters (a : Account) : Counters := a.pipeline.intake.metrics.counters

/-- The events in the channel. -/
def waiting (a : Account) : List Event := a.pipeline.intake.queue

/-! ### What every step keeps -/

/-- An account of a pipeline with room for `room` events is in balance. -/
structure Balanced (room : Nat) (a : Account) : Prop where
  capacity : a.pipeline.intake.capacity = room
  depth : a.counters.inChannel = a.waiting.length
  bound : a.waiting.length ≤ room
  /-- Every event that was processed was counted in one of three ways. -/
  outcomes : a.counters.delivered + a.counters.filtered + a.counters.errors = a.counters.processed
  processed : a.counters.processed = a.processed.length
  dropped : a.counters.dropped = a.turnedAway + a.lost.length
  order : a.queued = a.processed ++ a.pipeline.inHand ++ a.waiting ++ a.lost
  handed : a.handed <+: a.queued
  /-- Before the stop, what was handed over is what was processed and what is in hand. -/
  running : a.pipeline.consumer ≠ .finished → a.lost = [] ∧ a.handed = a.processed ++ a.pipeline.inHand
  /-- After it, the channel is closed and nothing waits. -/
  stopped : a.pipeline.consumer = .finished → a.pipeline.intake.isClosed = true ∧ a.waiting = []

theorem balanced_create (capacity : Nat) (window : Dedup.Window) (now : Moment) :
    Balanced (max capacity 1) (create capacity window now) where
  capacity := rfl
  depth := rfl
  bound := Nat.zero_le _
  outcomes := rfl
  processed := rfl
  dropped := rfl
  order := rfl
  handed := List.nil_prefix
  running _ := ⟨rfl, rfl⟩
  stopped h := by cases h

namespace Balanced
variable {room : Nat} {a : Account}

/-- A submission that the channel does not take leaves the counters as they were, but for the
dropped. -/
theorem submit (h : Balanced room a) (id : String) (e : Event) (now : Clock) :
    Balanced room (a.step (.submit id e now)) := by
  have hsubmit : a.step (.submit id e now) =
      { a with
        pipeline := { a.pipeline with intake := (a.pipeline.intake.submit id e now.moment).2 }
        queued := if (a.pipeline.intake.submit id e now.moment).1 = .queued then a.queued ++ [e] else a.queued
        turnedAway :=
          if (a.pipeline.intake.submit id e now.moment).1 = .dropped then a.turnedAway + 1 else a.turnedAway } := rfl
  rw [hsubmit, Intake.submit_eq]
  split
  · exact { h with }
  · split
    · exact { h with }
    · rename_i hopen
      have hrunning : a.pipeline.consumer ≠ .finished := fun hf => hopen (h.stopped hf).1
      obtain ⟨hlost, hhanded⟩ := h.running hrunning
      split
      · rename_i hroom
        rw [h.capacity] at hroom
        refine { h with
          depth := ?_, bound := ?_, order := ?_, handed := ?_, stopped := fun hf => absurd hf hrunning }
        · show a.counters.inChannel + 1 = (a.waiting ++ [e]).length
          rw [h.depth, List.length_append, List.length_singleton]
        · show (a.waiting ++ [e]).length ≤ room
          rw [List.length_append, List.length_singleton]
          exact hroom
        · show a.queued ++ [e] = a.processed ++ a.pipeline.inHand ++ (a.waiting ++ [e]) ++ a.lost
          rw [h.order, hlost]
          simp only [List.append_nil, List.append_assoc]
        · exact h.handed.trans (List.prefix_append _ _)
      · refine { h with dropped := ?_ }
        show a.counters.dropped + 1 = a.turnedAway + 1 + a.lost.length
        rw [h.dropped]
        omega

theorem start (h : Balanced room a) : Balanced room (a.step .start) := by
  show Balanced room { a with pipeline := a.pipeline.start }
  unfold Pipeline.start
  split
  · rename_i hconsumer
    have hhand : a.pipeline.inHand = [] := by simp [Pipeline.inHand, hconsumer]
    have hrunning := h.running (by simp [hconsumer])
    refine { h with order := ?_, running := fun _ => ?_, stopped := fun hf => by cases hf }
    · rw [h.order, hhand]
      rfl
    · rw [hhand] at hrunning
      exact hrunning
  · exact { h with }

/-- The event that is taken is the first that waits, so it follows those that were handed over. -/
theorem take (h : Balanced room a) (now : Now) : Balanced room (a.step (.take now)) := by
  cases hconsumer : a.pipeline.consumer with
  | waiting =>
    obtain ⟨hlost, hhanded⟩ := h.running (by simp [hconsumer])
    have hhand : a.pipeline.inHand = [] := by simp [Pipeline.inHand, hconsumer]
    cases hqueue : a.pipeline.intake.queue with
    | nil =>
      have hsame : a.pipeline.take now = a.pipeline := Pipeline.take_nil hqueue now
      have hstep : a.step (.take now) = a := by simp [step, hconsumer, hsame, hhand]
      rw [hstep]
      exact h
    | cons e rest =>
      have htake := Pipeline.take_waiting hconsumer hqueue now
      have hstep : a.step (.take now) =
          { a with
            pipeline :=
              { intake := { a.pipeline.intake with queue := rest }.record .left, consumer := .dispatching e now }
            handed := a.handed ++ [e] } := by
        simp [step, hconsumer, htake, Pipeline.inHand]
      have hwaiting : a.waiting = e :: rest := hqueue
      have horder : a.queued = a.processed ++ [e] ++ rest ++ a.lost := by
        rw [h.order, hhand, hwaiting, List.append_nil]
        simp only [List.append_assoc, List.cons_append, List.nil_append]
      rw [hhand, List.append_nil] at hhanded
      rw [hstep]
      refine { h with
        depth := ?_, bound := ?_, order := horder, handed := ?_, running := fun _ => ⟨hlost, ?_⟩
        stopped := fun hf => by cases hf }
      · show a.counters.inChannel - 1 = rest.length
        rw [h.depth, hwaiting]
        rfl
      · have hbound := h.bound
        rw [hwaiting] at hbound
        exact Nat.le_of_succ_le hbound
      · show a.handed ++ [e] <+: a.queued
        rw [horder, hhanded, List.append_assoc]
        exact List.prefix_append _ _
      · show a.handed ++ [e] = a.processed ++ [e]
        rw [hhanded]
  | _ =>
    have hsame : a.pipeline.take now = a.pipeline := Pipeline.take_of_not_waiting (by simp [hconsumer]) now
    have hstep : a.step (.take now) = a := by simp [step, hconsumer, hsame]
    rw [hstep]
    exact h

theorem publish (h : Balanced room a) (updates : List Update) :
    Balanced room { a with pipeline := a.pipeline.publish updates } := by
  have hcounters : ({ a with pipeline := a.pipeline.publish updates } : Account).counters = a.counters :=
    Pipeline.publish_counters updates _
  exact { h with
    depth := hcounters ▸ h.depth
    outcomes := hcounters ▸ h.outcomes
    processed := hcounters ▸ h.processed
    dropped := hcounters ▸ h.dropped }

/-- An event whose dispatch ends is counted as processed and in one of the three ways. -/
theorem finish (h : Balanced room a) (result : Except Failure Dispatch.Dispatched) (updates : List Update)
    (now : Clock) : Balanced room (a.step (.finish result updates now)) := by
  have hp := h.publish updates
  cases hconsumer : a.pipeline.consumer with
  | dispatching e since =>
    obtain ⟨hlost, hhanded⟩ := h.running (by simp [hconsumer])
    have hhand : a.pipeline.inHand = [e] := by simp [Pipeline.inHand, hconsumer]
    have hstep : a.step (.finish result updates now) =
        { a with
          pipeline := { (((a.pipeline.publish updates).record (Ending.ofResult result).change).record
            (.took (since.moment.elapsed now.moment))).record .processed with consumer := .waiting }
          processed := a.processed ++ [e] } := by
      simp only [Account.step, hhand, Pipeline.finish_dispatching (p := a.pipeline.publish updates) hconsumer]
    obtain ⟨hdepth, hdropped, hprocessed, houtcomes⟩ :=
      Pipeline.ended_counters (a.pipeline.publish updates) (.ofResult result) (since.moment.elapsed now.moment)
    rw [hstep]
    refine { hp with
      depth := hdepth.trans hp.depth, outcomes := ?_, processed := ?_, dropped := hdropped.trans hp.dropped, order := ?_
      running := fun _ => ⟨hlost, ?_⟩, stopped := fun hf => by cases hf }
    · exact houtcomes.trans ((congrArg (· + 1) hp.outcomes).trans hprocessed.symm)
    · refine (hprocessed.trans (congrArg (· + 1) hp.processed)).trans ?_
      simp
    · show a.queued = a.processed ++ [e] ++ [] ++ a.waiting ++ a.lost
      rw [h.order, hhand, List.append_nil]
    · show a.handed = a.processed ++ [e] ++ []
      rw [hhanded, hhand, List.append_nil]
  | _ =>
    have hhand : a.pipeline.inHand = [] := by simp [Pipeline.inHand, hconsumer]
    have hstep : a.step (.finish result updates now) = { a with pipeline := a.pipeline.publish updates } := by
      simp only [Account.step, hhand, List.append_nil]
      rw [Pipeline.finish_of_not_dispatching]
      simp [Pipeline.publish, hconsumer]
    rw [hstep]
    exact hp

/-- What is in hand and what waits at a stop is lost, and is counted as dropped. -/
theorem stop (h : Balanced room a) : Balanced room (a.step .stop) := by
  have hcounters : (a.step .stop).counters =
      { a.counters with
        inChannel := a.counters.inChannel - a.waiting.length
        dropped := a.counters.dropped + a.pipeline.inHand.length + a.waiting.length } := a.pipeline.stop_counters
  have hwaiting : (a.step .stop).waiting = [] := a.pipeline.stop_queue
  have hhand : (a.step .stop).pipeline.inHand = [] := rfl
  have hlost : (a.step .stop).lost = a.lost ++ a.pipeline.inHand ++ a.waiting := rfl
  refine ⟨a.pipeline.stop_capacity.trans h.capacity, ?_, ?_, ?_, ?_, ?_, ?_, h.handed,
    fun hne => absurd rfl hne, fun _ => ⟨a.pipeline.stop_isClosed, hwaiting⟩⟩
  · rw [hcounters, hwaiting, h.depth]
    exact Nat.sub_self _
  · rw [hwaiting]
    exact Nat.zero_le _
  · rw [hcounters]
    exact h.outcomes
  · rw [hcounters]
    exact h.processed
  · rw [hcounters, hlost]
    show a.counters.dropped + _ + _ = a.turnedAway + _
    rw [h.dropped]
    simp only [List.length_append]
    omega
  · rw [hwaiting, hhand, hlost]
    show a.queued = a.processed ++ [] ++ [] ++ _
    -- Before a stop nothing was lost, and after one nothing is in hand or waits.
    have hnothing : a.lost = [] ∨ a.pipeline.inHand = [] ∧ a.waiting = [] := by
      by_cases hf : a.pipeline.consumer = .finished
      · exact .inr ⟨by simp [Pipeline.inHand, hf], (h.stopped hf).2⟩
      · exact .inl (h.running hf).1
    rw [h.order]
    rcases hnothing with hnil | ⟨hhand, hwait⟩
    · simp [hnil]
    · simp [hhand, hwait]

theorem step (h : Balanced room a) (s : Pipeline.Step) : Balanced room (a.step s) := by
  cases s with
  | submit id e now => exact h.submit id e now
  | start => exact h.start
  | take now => exact h.take now
  | finish result updates now => exact h.finish result updates now
  | stop => exact h.stop

theorem run (h : Balanced room a) (steps : List Pipeline.Step) : Balanced room (a.run steps) := by
  unfold Account.run
  induction steps generalizing a with
  | nil => exact h
  | cons s rest ih => exact ih (h.step s)

/-- The three counts together: what was queued or turned away was processed or dropped, or is still on
its way. -/
theorem count (h : Balanced room a) : a.turnedAway ≤ a.counters.dropped ∧
    a.queued.length =
      a.counters.processed + a.counters.inChannel + a.pipeline.inHand.length + (a.counters.dropped - a.turnedAway) := by
  have hlength := congrArg List.length h.order
  simp only [List.length_append] at hlength
  rw [h.dropped, h.depth, h.processed, hlength]
  omega

end Balanced

/-! ### After a stop -/

/-- A consumer that is over stays so. -/
theorem step_finished {a : Account} (h : a.pipeline.consumer = .finished) (s : Pipeline.Step) :
    (a.step s).pipeline.consumer = .finished := by
  cases s with
  | submit id e now => exact h
  | start => simp [step, Pipeline.start, h]
  | take now =>
    show (a.pipeline.take now).consumer = .finished
    rw [Pipeline.take_of_not_waiting (by simp [h])]
    exact h
  | finish result updates now =>
    show ((a.pipeline.publish updates).finish _ now).consumer = .finished
    rw [Pipeline.finish_of_not_dispatching (by simp [Pipeline.publish, h])]
    exact h
  | stop => rfl

theorem run_finished {a : Account} {steps : List Pipeline.Step}
    (h : a.pipeline.consumer = .finished ∨ .stop ∈ steps) : (a.run steps).pipeline.consumer = .finished := by
  unfold run
  induction steps generalizing a with
  | nil =>
    rcases h with h | h
    · exact h
    · cases h
  | cons s rest ih =>
    refine ih ?_
    rcases h with h | h
    · exact .inl (step_finished h s)
    · rcases List.mem_cons.mp h with rfl | h
      · exact .inl rfl
      · exact .inr h

end Account

/-- At every point of every run, whatever the submissions, the results of dispatching and the place of
the stop, the counters account for every event that was queued, and the dispatcher was handed a prefix
of these in their order. Once the pipeline was stopped, nothing waits, every event that was queued was
processed or lost, and nothing more is taken. -/
theorem run_conserves (capacity : Nat) (window : Dedup.Window) (created : Moment) (steps : List Pipeline.Step) :
    let a := (Account.create capacity window created).run steps
    let c := a.counters
    c.delivered + c.filtered + c.errors = c.processed ∧
      (a.turnedAway ≤ c.dropped ∧
        a.queued.length = c.processed + c.inChannel + a.pipeline.inHand.length + (c.dropped - a.turnedAway)) ∧
      (c.inChannel = a.waiting.length ∧ c.inChannel ≤ max capacity 1) ∧
      a.handed <+: a.queued ∧
      (.stop ∈ steps →
        c.inChannel = 0 ∧ a.pipeline.inHand = [] ∧
          (a.queued = a.processed ++ a.lost ∧ c.processed = a.processed.length ∧
            c.dropped = a.turnedAway + a.lost.length) ∧
          ∀ id e now, (a.pipeline.submit id e now).1 = .closed ∨ (a.pipeline.submit id e now).1 = .duplicate) := by
  intro a c
  have h : Account.Balanced (max capacity 1) a := (Account.balanced_create capacity window created).run steps
  refine ⟨h.outcomes, h.count, ⟨h.depth, ?_⟩, h.handed, fun hstop => ?_⟩
  · exact h.depth ▸ h.bound
  · have hover : a.pipeline.consumer = .finished := Account.run_finished (.inr hstop)
    obtain ⟨hclosed, hwaiting⟩ := h.stopped hover
    have hhand : a.pipeline.inHand = [] := by simp [Pipeline.inHand, hover]
    refine ⟨?_, hhand, ⟨?_, h.processed, h.dropped⟩, fun id e now => ?_⟩
    · rw [show c.inChannel = a.waiting.length from h.depth, hwaiting]
      rfl
    · rw [h.order, hhand, hwaiting]
      simp
    · show (a.pipeline.intake.submit id e now.moment).1 = _ ∨ (a.pipeline.intake.submit id e now.moment).1 = _
      rw [Intake.submit_eq, hclosed]
      split
      · exact .inr rfl
      · exact .inl rfl

end AdmissionWatch.Watcher
