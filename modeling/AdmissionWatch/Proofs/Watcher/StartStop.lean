import AdmissionWatch.Watcher.Run

/-!
# A stop that cuts in on a start

Starting waits for one source after the other, and stopping waits until everything that runs is over;
whenever one of them waits, the other can go on. The last thing that starting does is to say that the
watcher is healthy, and it does not look whether the watcher was stopped in the meantime. So what a stop
says of the health stands exactly if no start was under way when it was called, or as long as that start
does not end (`health_after_stop`).
-/

namespace AdmissionWatch.Watcher

open Time Dispatch Health

/-! ### What leaves the health alone -/

/-- Two watchers of the same health, at the same point of their life. -/
structure Alike (w v : Watcher) : Prop where
  health : v.health = w.health
  lifecycle : v.lifecycle = w.lifecycle

namespace Alike
variable {u v w : Watcher}

theorem refl (w : Watcher) : Alike w w := ⟨rfl, rfl⟩

theorem trans (h₁ : Alike u v) (h₂ : Alike v w) : Alike u w :=
  ⟨h₂.health.trans h₁.health, h₂.lifecycle.trans h₁.lifecycle⟩

end Alike

section
variable (world : World Id) (now : Now)

theorem alike_finishWith (w : Watcher) (reply : Except Failure Unit) (now : Clock) :
    Alike w (w.finishWith reply now) := by
  unfold finishWith
  split <;> exact ⟨rfl, rfl⟩

theorem alike_consumeUpTo (n : Nat) (w : Watcher) : Alike w (Id.run (consumeUpTo world now n w)) := by
  induction n generalizing w with
  | zero => exact .refl w
  | succ n ih =>
    have htaken : Alike w { w with pipeline := w.pipeline.take now } := ⟨rfl, rfl⟩
    unfold consumeUpTo
    dsimp only
    split
    · split
      · exact (htaken.trans (alike_finishWith _ _ _)).trans (ih _)
      · exact htaken
    · exact htaken

theorem alike_consume (w : Watcher) : Alike w (Id.run (w.consume world now)) :=
  alike_consumeUpTo world now _ w

theorem alike_actAt (isCut : Bool) (isMeant : Feed → Bool) (thenConsume : Bool) (w : Watcher) (position : Nat) :
    Alike w (Id.run (actAt world now isCut isMeant thenConsume w position)) := by
  unfold actAt
  split
  · exact .refl w
  · rename_i f _
    split
    · exact .refl w
    · have hacted : ∀ f' intake, Alike w ({ w with feeds := w.feeds.set position f' }.withIntake intake) :=
        fun _ _ => ⟨rfl, rfl⟩
      split
      · exact (hacted _ _).trans (alike_consume world now _)
      · exact hacted _ _

theorem alike_act (w : Watcher) (isCut : Bool) (isMeant : Feed → Bool) (thenConsume : Bool) :
    Alike w (Id.run (w.act world now isCut isMeant thenConsume)) := by
  unfold act
  generalize List.range w.feeds.length = positions
  rw [List.idRun_foldlM]
  induction positions generalizing w with
  | nil => exact .refl w
  | cons position rest ih => exact (alike_actAt world now isCut isMeant thenConsume w position).trans (ih _)

theorem alike_reportIfDue (w : Watcher) : Alike w (Id.run (w.reportIfDue world now)) := by
  unfold reportIfDue
  split
  · exact .refl w
  · split <;> exact ⟨rfl, rfl⟩

theorem alike_publish (w : Watcher) : Alike w (Id.run (w.publish world)) := ⟨rfl, rfl⟩

theorem alike_settle (w : Watcher) : Alike w (Id.run (w.settle world now)) := by
  have hconsumed := alike_consume world now w
  have htold := hconsumed.trans (alike_act world now _ false (fun f => f.isDue now.timer && !f.readsFile) false)
  have hconsumed' := htold.trans (alike_consume world now _)
  have hread := hconsumed'.trans (alike_act world now _ false (fun f => f.isDue now.timer && f.readsFile) true)
  exact (hread.trans (alike_reportIfDue world now _)).trans (alike_publish world _)

end

/-! ### Starting and stopping beside each other -/

/-- How far starting has come. -/
inductive Starting where
  | uncalled
  /-- It waits for the source at a position; those before it have been started. -/
  | awaiting (position : Nat)
  | ended
  | refused

namespace Starting

/-- Whether starting has begun and is not over. -/
def isUnderWay : Starting → Bool
  | awaiting _ => true
  | _ => false

/-- Whether starting has come to its end. -/
def isEnded : Starting → Bool
  | ended => true
  | _ => false

end Starting

/-- How far stopping has come. -/
inductive Stopping where
  | uncalled
  /-- It waits until everything that runs is over. -/
  | waiting
  | returned

/-- A watcher that is started once and stopped once. -/
structure Crossing where
  watcher : Watcher
  starting : Starting := .uncalled
  stopping : Stopping := .uncalled

/-- What may happen next. -/
inductive Move where
  | callStart (timer : Moment)
  /-- The source that starting waits for has been started. -/
  | resumeStart (world : World Id) (now : Now)
  | callStop
  /-- Everything that stopping waits for is over. -/
  | resumeStop (world : World Id) (now : Now)
  /-- What runs goes on. -/
  | settle (world : World Id) (now : Now)
  | submit (id : String) (event : Event) (now : Clock)

namespace Crossing

/-- Starting goes on at a position: it waits for the next source that is watched at all, and if there is
none, it ends. -/
def goOn (c : Crossing) (timer : Moment) (position : Nat) : Crossing :=
  match (c.watcher.feeds.drop position).findIdx? (·.setup.isEnabled) with
  | some ahead => { c with starting := .awaiting (position + ahead) }
  | none => { c with watcher := c.watcher.endStart timer, starting := .ended }

/-- The source at a position is started. -/
def startAt (c : Crossing) (world : World Id) (now : Now) (position : Nat) : Crossing :=
  { c with watcher.feeds := c.watcher.feeds.modify position fun f => Id.run (f.start world now) }

/-- What a move does. One that is not due leaves everything as it is. -/
def step (c : Crossing) : Move → Crossing
  | .callStart timer =>
    match c.starting, c.watcher.beginStart with
    | .uncalled, .ok watcher => goOn { c with watcher } timer 0
    | .uncalled, .error _ => { c with starting := .refused }
    | _, _ => c
  | .resumeStart world now =>
    match c.starting with
    | .awaiting position => (c.startAt world now position).goOn now.timer (position + 1)
    | _ => c
  | .callStop =>
    match c.stopping, c.watcher.beginStop? with
    | .uncalled, some watcher => { c with watcher, stopping := .waiting }
    | .uncalled, none => { c with stopping := .returned }
    | _, _ => c
  | .resumeStop world now =>
    match c.stopping with
    | .waiting =>
      { c with watcher := (Id.run (c.watcher.act world now true Feed.isPolling false)).endStop, stopping := .returned }
    | _ => c
  | .settle world now => { c with watcher := Id.run (c.watcher.settle world now) }
  | .submit id e now => { c with watcher := (c.watcher.submit id e now).2 }

/-- Moves in turn. -/
def run (c : Crossing) (moves : List Move) : Crossing := moves.foldl step c

/-! ### What nothing interrupts -/

theorem step_of_not_awaiting {c : Crossing} (hnot : c.starting.isUnderWay = false) (world : World Id) (now : Now) :
    c.step (.resumeStart world now) = c := by
  cases hstarting : c.starting with
  | awaiting position =>
    rw [hstarting] at hnot
    cases hnot
  | _ => simp [step, hstarting]

theorem run_of_not_awaiting {c : Crossing} (hnot : c.starting.isUnderWay = false) (world : World Id)
    (now : Now) (n : Nat) : c.run (List.replicate n (.resumeStart world now)) = c := by
  induction n with
  | zero => rfl
  | succ n ih =>
    show (c.step (.resumeStart world now)).run _ = c
    rw [step_of_not_awaiting hnot]
    exact ih

/-- A source that is not watched does nothing when it is started. -/
theorem start_of_disabled {f : Feed} (hdisabled : f.setup.isEnabled = false) (world : World Id) (now : Now) :
    Id.run (f.start world now) = f := by
  unfold Feed.start
  simp [hdisabled]

/-- Of the sources from a position on, those before the next that is watched need no start. -/
theorem feeds_startAt {feeds : List Feed} {position ahead : Nat}
    (hahead : (feeds.drop position).findIdx? (·.setup.isEnabled) = some ahead) (world : World Id) (now : Now) :
    ((feeds.modify (position + ahead) fun f => Id.run (f.start world now)).mapIdx fun i f =>
        if i < position + ahead + 1 then f else Id.run (f.start world now)) =
      feeds.mapIdx fun i f => if i < position then f else Id.run (f.start world now) := by
  obtain ⟨_, -, hbefore⟩ := List.findIdx?_eq_some_iff_getElem.mp hahead
  refine List.ext_getElem? fun i => ?_
  rw [List.getElem?_mapIdx, List.getElem?_mapIdx, List.getElem?_modify]
  cases hf : feeds[i]? with
  | none => simp
  | some f =>
    rcases Nat.lt_trichotomy i (position + ahead) with hlt | rfl | hgt
    · by_cases hstarted : i < position
      · simp [hstarted, Nat.ne_of_gt hlt, Nat.lt_succ_of_lt hlt]
      · obtain ⟨j, rfl⟩ := Nat.exists_eq_add_of_le (Nat.le_of_not_lt hstarted)
        obtain ⟨hat, rfl⟩ := List.getElem?_eq_some_iff.mp hf
        have hdisabled : feeds[position + j].setup.isEnabled = false := by
          simpa using hbefore j (Nat.lt_of_add_lt_add_left hlt)
        simp [hstarted, Nat.lt_succ_of_lt hlt, start_of_disabled hdisabled]
    · have hnot : ¬position + ahead < position := Nat.not_lt.mpr (Nat.le_add_right position ahead)
      simp [hnot]
    · simp [Nat.ne_of_lt hgt, Nat.not_lt.mpr hgt, Nat.not_lt.mpr (Nat.le_of_add_right_le (Nat.le_of_lt hgt))]

/-- Nor do those of which none is watched. -/
theorem feeds_started {feeds : List Feed} {position : Nat}
    (hnone : (feeds.drop position).findIdx? (·.setup.isEnabled) = none) (world : World Id) (now : Now) :
    (feeds.mapIdx fun i f => if i < position then f else Id.run (f.start world now)) = feeds := by
  have hdisabled := List.findIdx?_eq_none_iff.mp hnone
  refine List.ext_getElem? fun i => ?_
  rw [List.getElem?_mapIdx]
  cases hf : feeds[i]? with
  | none => rfl
  | some f =>
    by_cases hstarted : i < position
    · simp [hstarted]
    · have hmem : f ∈ feeds.drop position := by
        refine List.mem_of_getElem? (i := i - position) ?_
        rw [List.getElem?_drop, Nat.add_sub_cancel' (Nat.le_of_not_lt hstarted)]
        exact hf
      simp [hstarted, start_of_disabled (hdisabled f hmem)]

/-- Once it is not interrupted, starting starts all sources from a position on and ends. -/
theorem run_goOn (world : World Id) (now : Now) (n : Nat) (c : Crossing) (position : Nat)
    (hn : c.watcher.feeds.length ≤ position + n) :
    (c.goOn now.timer position).run (List.replicate n (.resumeStart world now)) =
      { c with
        watcher := endStart
          { c.watcher with feeds := c.watcher.feeds.mapIdx fun i f =>
            if i < position then f else Id.run (f.start world now) }
          now.timer
        starting := .ended } := by
  induction n generalizing c position with
  | zero =>
    have hnone : (c.watcher.feeds.drop position).findIdx? (·.setup.isEnabled) = none := by
      rw [List.drop_eq_nil_of_le (by simpa using hn)]
      rfl
    rw [feeds_started hnone]
    simp [goOn, hnone, run]
  | succ n ih =>
    cases hnext : (c.watcher.feeds.drop position).findIdx? (·.setup.isEnabled) with
    | none =>
      have hended : c.goOn now.timer position =
          { c with watcher := c.watcher.endStart now.timer, starting := .ended } := by
        simp [goOn, hnext]
      rw [feeds_started hnext, hended]
      exact run_of_not_awaiting rfl world now (n + 1)
    | some ahead =>
      have hawaiting : c.goOn now.timer position = { c with starting := .awaiting (position + ahead) } := by
        simp [goOn, hnext]
      have hstep : (c.goOn now.timer position).step (.resumeStart world now) =
          goOn ({ c with starting := .awaiting (position + ahead) }.startAt world now (position + ahead)) now.timer
            (position + ahead + 1) := by
        rw [hawaiting]
        rfl
      show ((c.goOn now.timer position).step (.resumeStart world now)).run _ = _
      rw [hstep, ih]
      · simp only [startAt, feeds_startAt hnext]
      · show (c.watcher.feeds.modify _ _).length ≤ _
        rw [List.length_modify]
        omega

/-- A watcher that is started at once. -/
theorem run_start (w : Watcher) (world : World Id) (now : Now) :
    ({ watcher := w } : Crossing).run (.callStart now.timer :: List.replicate w.feeds.length (.resumeStart world now)) =
      match Id.run (w.start world now) with
      | .ok started => { watcher := started, starting := .ended }
      | .error _ => { watcher := w, starting := .refused } := by
  show (({ watcher := w } : Crossing).step (.callStart now.timer)).run _ = _
  cases hbegin : w.beginStart with
  | error e =>
    have hstep : ({ watcher := w } : Crossing).step (.callStart now.timer) =
        { watcher := w, starting := .refused } := by
      simp [step, hbegin]
    have hstart : Id.run (w.start world now) = .error e := by
      unfold start
      rw [hbegin]
      rfl
    rw [hstep, hstart]
    exact run_of_not_awaiting rfl world now _
  | ok begun =>
    have hfeeds : begun.feeds = w.feeds := by
      unfold beginStart at hbegin
      split at hbegin
      · cases hbegin
        rfl
      · cases hbegin
    have hstep : ({ watcher := w } : Crossing).step (.callStart now.timer) = goOn { watcher := begun } now.timer 0 := by
      simp [step, hbegin]
    have hstart : Id.run (w.start world now) =
        .ok (endStart { begun with feeds := begun.feeds.map fun f => Id.run (f.start world now) } now.timer) := by
      unfold start
      rw [hbegin, ← List.idRun_mapM]
      rfl
    have hall : (begun.feeds.mapIdx fun i f => if i < 0 then f else Id.run (f.start world now)) =
        begun.feeds.map fun f => Id.run (f.start world now) := List.ext_getElem? fun i => by simp
    have hended := run_goOn world now w.feeds.length { watcher := begun } 0 (by rw [hfeeds]; exact Nat.le_add_left _ _)
    rw [hall] at hended
    rw [hstep, hstart, hended]

/-- A watcher that is stopped at once. -/
theorem run_stop (w : Watcher) (world : World Id) (now : Now) :
    (({ watcher := w } : Crossing).run [.callStop, .resumeStop world now]).watcher = Id.run (w.stop world now) := by
  unfold stop
  cases hbegin : w.beginStop? with
  | none => simp [run, step, hbegin]
  | some begun =>
    simp [run, step, hbegin]

/-! ### What every move keeps -/

theorem goOn_cases (c : Crossing) (timer : Moment) (position : Nat) :
    (∃ next, c.goOn timer position = { c with starting := .awaiting next }) ∨
      c.goOn timer position = { c with watcher := c.watcher.endStart timer, starting := .ended } := by
  unfold goOn
  split
  · rename_i ahead _
    exact .inl ⟨position + ahead, rfl⟩
  · exact .inr rfl

theorem alike_resumeStop (w : Watcher) (world : World Id) (now : Now) :
    Alike w (Id.run (w.act world now true Feed.isPolling false)).endStop :=
  (alike_act world now w true Feed.isPolling false).trans ⟨rfl, rfl⟩

/-- As long as stopping has not been called, it will find a watcher to stop. -/
def Stoppable (c : Crossing) : Prop :=
  c.stopping = .uncalled → c.watcher.lifecycle ≠ .stopped

namespace Stoppable
variable {c : Crossing}

theorem goOn (h : c.Stoppable) (timer : Moment) (position : Nat) : (c.goOn timer position).Stoppable := by
  rcases c.goOn_cases timer position with ⟨next, hnext⟩ | hended
  · rw [hnext]
    exact h
  · rw [hended]
    exact h

theorem of_alike (h : c.Stoppable) {w : Watcher} (halike : Alike c.watcher w) :
    ({ c with watcher := w } : Crossing).Stoppable :=
  fun huncalled hstopped => h huncalled (halike.lifecycle.symm.trans hstopped)

theorem step (h : c.Stoppable) (m : Move) : (c.step m).Stoppable := by
  cases m with
  | callStart timer =>
    unfold Crossing.step
    dsimp only
    split
    · rename_i begun hbegin
      refine goOn (fun _ => ?_) timer 0
      unfold beginStart at hbegin
      split at hbegin
      · cases hbegin
        simp
      · cases hbegin
    · exact h
    · exact h
  | resumeStart world now =>
    unfold Crossing.step
    dsimp only
    split
    · rename_i position hstarting
      have hstarted : (c.startAt world now position).Stoppable := h
      exact hstarted.goOn now.timer (position + 1)
    · exact h
  | callStop =>
    unfold Crossing.step
    dsimp only
    split
    · exact fun huncalled => by cases huncalled
    · exact fun huncalled => by cases huncalled
    · exact h
  | resumeStop world now =>
    unfold Crossing.step
    dsimp only
    split
    · exact fun huncalled => by cases huncalled
    · exact h
  | settle world now => exact h.of_alike (alike_settle world now c.watcher)
  | submit id e now => exact h.of_alike ⟨rfl, rfl⟩

theorem run (h : c.Stoppable) (moves : List Move) : (c.run moves).Stoppable := by
  unfold Crossing.run
  induction moves generalizing c with
  | nil => exact h
  | cons m rest ih => exact ih (h.step m)

end Stoppable

/-- What holds once stopping has been called, by whether starting was under way then. -/
structure Cut (wasUnderWay : Bool) (c : Crossing) : Prop where
  called : c.stopping ≠ .uncalled
  lifecycle : c.watcher.lifecycle = .stopped
  status : c.watcher.health.status = if wasUnderWay && c.starting.isEnded then .healthy else .stopping
  /-- Nothing begins to start any more. -/
  underWay : c.starting.isUnderWay = true → wasUnderWay = true
  /-- What was under way can only end. -/
  goesOn : wasUnderWay = true → c.starting.isUnderWay = true ∨ c.starting.isEnded = true

namespace Cut
variable {wasUnderWay : Bool} {c : Crossing}

theorem callStop (h : c.Stoppable) (huncalled : c.stopping = .uncalled) :
    Cut c.starting.isUnderWay (c.step .callStop) := by
  have hbegin : c.watcher.beginStop? =
      some { c.watcher with lifecycle := .stopped, health := c.watcher.health.setStatus .stopping } := by
    unfold beginStop?
    split
    · rename_i hstopped
      exact absurd hstopped (h huncalled)
    · rfl
  have hstep : c.step .callStop =
      { c with
        watcher := { c.watcher with lifecycle := .stopped, health := c.watcher.health.setStatus .stopping }
        stopping := .waiting } := by
    simp [Crossing.step, huncalled, hbegin]
  rw [hstep]
  refine ⟨(fun h => by cases h), rfl, ?_, id, .inl⟩
  show Status.stopping = _
  cases c.starting <;> rfl

theorem of_alike (h : Cut wasUnderWay c) {w : Watcher} (halike : Alike c.watcher w) {stopping : Stopping}
    (hcalled : stopping ≠ .uncalled) : Cut wasUnderWay { c with watcher := w, stopping } where
  called := hcalled
  lifecycle := halike.lifecycle.trans h.lifecycle
  status := (congrArg Health.State.status halike.health).trans h.status
  underWay := h.underWay
  goesOn := h.goesOn

/-- A start that goes on was under way, and if it ends, it says that the watcher is healthy. -/
theorem resumeStart (h : Cut wasUnderWay c) (world : World Id) (now : Now) :
    Cut wasUnderWay (c.step (.resumeStart world now)) := by
  cases hstarting : c.starting.isUnderWay with
  | false =>
    rw [step_of_not_awaiting hstarting]
    exact h
  | true =>
    obtain rfl : wasUnderWay = true := h.underWay hstarting
    obtain ⟨position, hposition⟩ : ∃ position, c.starting = .awaiting position := by
      cases hat : c.starting with
      | awaiting position => exact ⟨position, rfl⟩
      | _ =>
        rw [hat] at hstarting
        cases hstarting
    have hstopping : c.watcher.health.status = .stopping := by
      rw [h.status, hposition]
      rfl
    have hstep : c.step (.resumeStart world now) = (c.startAt world now position).goOn now.timer (position + 1) := by
      simp [Crossing.step, hposition]
    rw [hstep]
    rcases goOn_cases (c.startAt world now position) now.timer (position + 1) with ⟨next, hnext⟩ | hended
    · rw [hnext]
      exact ⟨h.called, h.lifecycle, hstopping, fun _ => rfl, fun _ => .inl rfl⟩
    · rw [hended]
      exact ⟨h.called, h.lifecycle, rfl, fun _ => rfl, fun _ => .inr rfl⟩

theorem step (h : Cut wasUnderWay c) (m : Move) : Cut wasUnderWay (c.step m) := by
  cases m with
  | callStart timer =>
    have hrefused : c.watcher.beginStart = .error startedTwice := by
      unfold beginStart
      rw [h.lifecycle]
    cases hstarting : c.starting with
    | uncalled =>
      have hstep : c.step (.callStart timer) = { c with starting := .refused } := by
        simp [Crossing.step, hstarting, hrefused]
      have hstatus := h.status
      have hgoesOn := h.goesOn
      rw [hstarting] at hstatus hgoesOn
      rw [hstep]
      exact ⟨h.called, h.lifecycle, hstatus, (fun hno => by cases hno), hgoesOn⟩
    | _ =>
      have hstep : c.step (.callStart timer) = c := by simp [Crossing.step, hstarting]
      rw [hstep]
      exact h
  | resumeStart world now => exact h.resumeStart world now
  | callStop =>
    have hstep : c.step .callStop = c := by
      cases hstopping : c.stopping with
      | uncalled => exact absurd hstopping h.called
      | _ => simp [Crossing.step, hstopping]
    rw [hstep]
    exact h
  | resumeStop world now =>
    unfold Crossing.step
    dsimp only
    split
    · exact h.of_alike (alike_resumeStop c.watcher world now) fun h => by cases h
    · exact h
  | settle world now => exact h.of_alike (alike_settle world now c.watcher) h.called
  | submit id e now =>
    have hsame : Alike c.watcher (c.watcher.submit id e now).2 := ⟨rfl, rfl⟩
    exact h.of_alike hsame h.called

theorem run (h : Cut wasUnderWay c) (moves : List Move) : Cut wasUnderWay (c.run moves) := by
  unfold Crossing.run
  induction moves generalizing c with
  | nil => exact h
  | cons m rest ih => exact ih (h.step m)

/-- A start that was under way ends if nothing keeps its sources from being started. -/
theorem ends (h : Cut true c) (world : World Id) (now : Now) :
    (c.run (List.replicate (c.watcher.feeds.length + 1) (.resumeStart world now))).starting = .ended := by
  cases hstarting : c.starting with
  | awaiting position =>
    have hstep : c.step (.resumeStart world now) = (c.startAt world now position).goOn now.timer (position + 1) := by
      simp [Crossing.step, hstarting]
    have hlength : (c.startAt world now position).watcher.feeds.length = c.watcher.feeds.length :=
      List.length_modify _ _ _
    show ((c.step (.resumeStart world now)).run (List.replicate c.watcher.feeds.length _)).starting = _
    rw [hstep, run_goOn world now _ _ _ (by omega)]
  | ended =>
    rw [run_of_not_awaiting (by rw [hstarting]; rfl)]
    exact hstarting
  | _ =>
    have hgoesOn := h.goesOn rfl
    rw [hstarting] at hgoesOn
    rcases hgoesOn with hno | hno <;> cases hno

end Cut

end Crossing

/-- Stopping is called at some point of one start or outside of it, and any moves follow. The watcher is
said to be stopping from then on, unless a start that was under way has ended since: by that it is said
to be healthy, and it is so for every such start once its sources have been started, whether stopping
has returned or not. The probes fail as long as it is stopping. -/
theorem health_after_stop (w : Watcher) (hcreated : w.lifecycle = .created) (before after : List Move)
    (huncalled : (({ watcher := w } : Crossing).run before).stopping = .uncalled) :
    let cut := ({ watcher := w } : Crossing).run before
    let c := (cut.step .callStop).run after
    c.watcher.health.status = (if cut.starting.isUnderWay && c.starting.isEnded then .healthy else .stopping) ∧
      (∀ now, (c.watcher.health.liveness now).passes = (cut.starting.isUnderWay && c.starting.isEnded)) ∧
      (∀ now counters, (c.watcher.health.readiness now counters).passes = true →
        (cut.starting.isUnderWay && c.starting.isEnded) = true) ∧
      (cut.starting.isUnderWay = true → ∀ world now,
        (c.run (List.replicate (c.watcher.feeds.length + 1) (.resumeStart world now))).watcher.health.status =
          .healthy) := by
  intro cut c
  have hstoppable : cut.Stoppable := Crossing.Stoppable.run (fun _ => by simp [hcreated]) before
  have h : Crossing.Cut cut.starting.isUnderWay c := (Crossing.Cut.callStop hstoppable huncalled).run after
  refine ⟨h.status, fun now => ?_, fun now counters hready => ?_, fun hway world now => ?_⟩
  · show (c.watcher.health.status != .stopping) = _
    rw [h.status]
    cases cut.starting.isUnderWay && c.starting.isEnded <;> rfl
  · have hstatus := h.status
    cases hresumed : cut.starting.isUnderWay && c.starting.isEnded with
    | true => rfl
    | false =>
      rw [hresumed] at hstatus
      simp [Health.State.readiness, hstatus] at hready
  · rw [hway] at h
    have hafter := h.run (List.replicate (c.watcher.feeds.length + 1) (.resumeStart world now))
    have hended := h.ends world now
    rw [hafter.status, hended]
    rfl

/-- A world in which there is nothing. -/
def World.empty : World Id where
  hasFile _ := false
  content _ := .ok []
  list _ := .ok []
  ask _ _ := .ok []
  deliver _ := .ok ()
  report _ := ()
  publish _ := ()

/-- A watcher of one audit log that has not been started. -/
def ofAuditLog : Watcher where
  pipeline := .create 1 0
  dispatcher := .withSink Dispatcher.consoleSink 60 0
  health := Health.State.register { started := 0, version := watcherVersion } .pipeline
  feeds := [{ setup := .auditLog "audit.log" (.ofSeconds 5) }]
  metricsInterval := .zero

/-- If it is stopped after its start has ended, it is said to be stopping. -/
theorem health_after_stop_in_turn :
    ofAuditLog.lifecycle = .created ∧
      let cut := ({ watcher := ofAuditLog } : Crossing).run [.callStart 0, .resumeStart .empty default]
      let c := (cut.step .callStop).run [.resumeStop .empty default]
      cut.stopping = .uncalled ∧ c.stopping = .returned ∧ c.watcher.health.status = .stopping :=
  ⟨rfl, rfl, rfl,
    (health_after_stop ofAuditLog rfl [.callStart 0, .resumeStart .empty default] [.resumeStop .empty default] rfl).1⟩

/-- If it is stopped while its start waits for the log, it is said to be healthy once the start goes on,
though the stop has returned. -/
theorem healthy_after_stop :
    create { bufferSize := 1, sources := [.auditLog "audit.log" (.ofSeconds 5)] }
    (.withSink Dispatcher.consoleSink 60 0) 0 =
        .ok ofAuditLog ∧
      let stopped := ({ watcher := ofAuditLog } : Crossing).run [.callStart 0, .callStop, .resumeStop .empty default]
      let c := stopped.run [.resumeStart .empty default]
      stopped.stopping = .returned ∧ stopped.watcher.health.status = .stopping ∧ c.stopping = .returned ∧
        c.watcher.health.status = .healthy ∧ ∀ now, (c.watcher.health.liveness now).passes = true :=
  ⟨rfl, rfl, rfl, rfl, rfl, fun _ => rfl⟩

end AdmissionWatch.Watcher
