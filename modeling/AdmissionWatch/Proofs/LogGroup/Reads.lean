import AdmissionWatch.Proofs.LogGroup.Course
import AdmissionWatch.LogGroup.Poller
import AdmissionWatch.Proofs.LogGroup.NoLoss

/-!
# The reads of a poll

The course of a poll, read by read: each read asks for one log from where its cursor stands, as often as
the retry rule has it, and either brings nothing or brings one batch, of which the intake is handed what
the budget allows (`Session.Course.reads`). A poll begins with one call: when that fails for good the poll
has asked in vain and handed over nothing, and else it goes on by reads and succeeds (`Opened`).
-/

namespace AdmissionWatch.LogGroup

open Time Session

variable {i i' mid : Intake} {steps rest : List Interaction} {c : Call} {name : String}

/-! ### What shows in a course -/

/-- The entries that a step brought, each under the name of the log that was asked for. -/
def Interaction.received : Interaction → List (String × Entry)
  | .asked (.entries _ name _ _) (.ok batch) => batch.map fun e => (name, e)
  | .asked (.matching group _ _ _) (.ok batch) => batch.map fun e => (group, e)
  | _ => []

/-- The messages that a step handed to the intake. -/
def Interaction.messages : Interaction → List String
  | .handed _ messages => messages
  | _ => []

/-- The log that a call reads, and from which time on. -/
def Call.read? : Call → Option (String × Int)
  | .entries _ name since _ => some (name, since)
  | .matching group _ since _ => some (group, since)
  | .groups .. | .streams .. => none

/-- The log that a step read, and from which time on. -/
def Interaction.read? : Interaction → Option (String × Int)
  | .asked c _ => c.read?
  | .paused .. | .handed .. => none

/-- Whether a step made a call. -/
def Interaction.isAsked : Interaction → Bool
  | .asked .. => true
  | .paused .. | .handed .. => false

/-- The entries that steps brought, in order. -/
def received (steps : List Interaction) : List (String × Entry) := steps.flatMap Interaction.received

/-- The messages that steps handed to the intake, in order. -/
def handed (steps : List Interaction) : List String := steps.flatMap Interaction.messages

/-- The reads of steps, in order. -/
def reads (steps : List Interaction) : List (String × Int) := steps.filterMap Interaction.read?

section Views
variable (steps rest : List Interaction)

@[simp] theorem received_append : received (steps ++ rest) = received steps ++ received rest := List.flatMap_append
@[simp] theorem handed_append : handed (steps ++ rest) = handed steps ++ handed rest := List.flatMap_append
@[simp] theorem reads_append : reads (steps ++ rest) = reads steps ++ reads rest := List.filterMap_append

/-- A step that hands messages over brings nothing, -/
theorem received_of_handed (now : Clock) (messages : List String) : received [.handed now messages] = [] := rfl

/-- it hands over its messages, -/
theorem handed_of_handed (now : Clock) (messages : List String) : handed [.handed now messages] = messages :=
  List.append_nil messages

/-- and it reads nothing. -/
theorem reads_handed (now : Clock) (messages : List String) : reads (.handed now messages :: steps) = reads steps := rfl

end Views

/-! ### Calls that are tried again -/

/-- A step between the first attempt at a call and the end of the attempts: the call failed, or there
was a pause. -/
def Interaction.IsVain (c : Call) (x : Interaction) : Prop :=
  (∃ e, x = .asked c (.error e)) ∨ ∃ d isCut, x = .paused d isCut

/-- The steps of a call that is tried until it has this outcome. -/
def Settled (c : Call) (steps : List Interaction) : c.Reply → Prop
  | .ok items => ∃ vain, (∀ x ∈ vain, x.IsVain c) ∧ steps = vain ++ [.asked c (.ok items)]
  | .error _ => ∀ x ∈ steps, x.IsVain c

theorem Settled.again {x : Interaction} {reply : c.Reply} (hx : x.IsVain c) (h : Settled c steps reply) :
    Settled c (x :: steps) reply := by
  cases reply with
  | ok items =>
    obtain ⟨vain, hvain, rfl⟩ := h
    exact ⟨x :: vain, List.forall_mem_cons.mpr ⟨hx, hvain⟩, rfl⟩
  | error e => exact List.forall_mem_cons.mpr ⟨hx, h⟩

theorem settled_asked (c : Call) (reply : c.Reply) : Settled c [.asked c reply] reply := by
  cases reply with
  | ok items => exact ⟨[], List.forall_mem_nil _, rfl⟩
  | error e => exact List.forall_mem_singleton.mpr (.inl ⟨e, rfl⟩)

/-- The attempts leave the intake alone, and the call has been made until it has an outcome. -/
theorem Session.Course.of_attempt {rule : RetryRule} {left : Nat} {reply : c.Reply}
    (h : (attempt rule c left).Course i steps reply i') : i' = i ∧ Settled c steps reply := by
  induction left generalizing steps with
  | zero =>
    obtain ⟨answer, rest, rfl, hrest⟩ := course_ask_iff.mp h
    obtain ⟨rfl, rfl, rfl⟩ := course_done_iff.mp hrest
    refine ⟨rfl, ?_⟩
    cases answer with
    | ok items => exact settled_asked c (.ok items)
    | error e => exact settled_asked c (.error e)
  | succ left ih =>
    obtain ⟨answer, rest, rfl, hrest⟩ := course_ask_iff.mp h
    split at hrest
    · rename_i hpassing
      have hvain : (Interaction.asked c answer).IsVain c := by
        cases answer with
        | ok items => cases hpassing
        | error e => exact .inl ⟨e, rfl⟩
      obtain ⟨isCut, rest, rfl, hresume⟩ := course_pause_iff.mp hrest
      have hpaused : (Interaction.paused rule.delay isCut).IsVain c := .inr ⟨_, _, rfl⟩
      split at hresume
      · obtain ⟨rfl, rfl, rfl⟩ := course_done_iff.mp hresume
        exact ⟨rfl, List.forall_mem_cons.mpr ⟨hvain, List.forall_mem_singleton.mpr hpaused⟩⟩
      · obtain ⟨rfl, hsettled⟩ := ih hresume
        exact ⟨rfl, (hsettled.again hpaused).again hvain⟩
    · obtain ⟨rfl, rfl, rfl⟩ := course_done_iff.mp hrest
      exact ⟨rfl, settled_asked c reply⟩

theorem Session.Course.of_retry {rule : RetryRule} {reply : c.Reply} (h : (retry rule c).Course i steps reply i') :
    i' = i ∧ Settled c steps reply :=
  h.of_attempt

theorem course_retry_of_ok (rule : RetryRule) {c : Call} (items : List c.Item) (i : Intake) :
    (retry rule c).Course i [.asked c (.ok items)] (.ok items) i := by
  unfold retry
  cases rule.attempts - 1 with
  | zero => exact .ask (.done _ _)
  | succ left => exact .ask (.done _ _)

/-- What the steps of a read show: the log and where it is read from, and what was brought at last. -/
structure Asking (name : String) (since : Int) (steps : List Interaction) (found : List (String × Entry)) : Prop where
  received : received steps = found
  handed : handed steps = []
  reads : ∀ r ∈ reads steps, r = (name, since)
  /-- Nothing is asked any more when something was brought. -/
  last : ∀ before after, steps = before ++ after → LogGroup.received before ≠ [] → after = []

theorem received_vain (h : ∀ x ∈ steps, x.IsVain c) : received steps = [] := by
  refine List.flatMap_eq_nil_iff.mpr fun x hx => ?_
  rcases h x hx with ⟨e, rfl⟩ | ⟨d, isCut, rfl⟩
  · cases c <;> rfl
  · rfl

theorem handed_vain (h : ∀ x ∈ steps, x.IsVain c) : handed steps = [] := by
  refine List.flatMap_eq_nil_iff.mpr fun x hx => ?_
  rcases h x hx with ⟨e, rfl⟩ | ⟨d, isCut, rfl⟩ <;> rfl

theorem asking_vain {since : Int} (hread : ∀ r, c.read? = some r → r = (name, since))
    (h : ∀ x ∈ steps, x.IsVain c) : Asking name since steps [] where
  received := received_vain h
  handed := handed_vain h
  reads r hr := by
    obtain ⟨x, hx, hxr⟩ := List.mem_filterMap.mp hr
    rcases h x hx with ⟨e, rfl⟩ | ⟨d, isCut, rfl⟩
    · exact hread r hxr
    · cases hxr
  last before after hsteps hbefore := by
    subst hsteps
    exact absurd (received_vain fun x hx => h x (List.mem_append_left _ hx)) hbefore

theorem Settled.asking {reply : c.Reply} {since : Int} (h : Settled c steps reply)
    (hread : ∀ r, c.read? = some r → r = (name, since)) :
    Asking name since steps (Interaction.asked c reply).received := by
  cases reply with
  | error e =>
    have hnone : (Interaction.asked c (.error e)).received = [] := by cases c <;> rfl
    rw [hnone]
    exact asking_vain hread h
  | ok items =>
    obtain ⟨vain, hvain, rfl⟩ := h
    have hasking := asking_vain hread hvain
    refine ⟨?_, ?_, fun r hr => ?_, ?_⟩
    · rw [received_append, hasking.received]
      exact List.flatMap_singleton ..
    · rw [handed_append, hasking.handed]
      rfl
    · rcases List.mem_append.mp (reads_append vain _ ▸ hr) with hr | hr
      · exact hasking.reads r hr
      · obtain ⟨x, hx, hxr⟩ := List.mem_filterMap.mp hr
        obtain rfl := List.mem_singleton.mp hx
        exact hread r hxr
    · intro before after hsteps hbefore
      rcases List.append_eq_append_iff.mp hsteps with ⟨more, rfl, hlast⟩ | ⟨more, rfl, -⟩
      · rcases List.cons_eq_append_iff.mp hlast with ⟨rfl, -⟩ | ⟨tail, rfl, htail⟩
        · simp [hasking.received] at hbefore
        · exact (List.append_eq_nil_iff.mp htail.symm).2
      · exact absurd (received_vain fun x hx => hvain x (List.mem_append_left _ hx)) hbefore

/-! ### Reads -/

/-- How far a poll has come after it looked at a batch, and what the intake told of the messages. -/
def Poll.looked (p : Poll) (name : String) (batch : List Entry) (tally : Source.Tally) : Poll where
  cursors := ((newest? (p.budget.take batch).1).map (p.cursors.advance name)).getD p.cursors
  budget := (p.budget.take batch).2
  tally := p.tally + tally

/-- The messages of a batch that the budget allows to look at. -/
def Poll.allowed (p : Poll) (batch : List Entry) : List String := (p.budget.take batch).1.map (·.message)

theorem course_look_iff {p p' : Poll} {batch : List Entry} :
    (p.look name batch).Course i steps p' i' ↔ ∃ now, steps = [.handed now (p.allowed batch)] ∧
      p' = p.looked name batch (readMessages now i (p.allowed batch)).tally ∧
      i' = (readMessages now i (p.allowed batch)).intake := by
  constructor
  · intro h
    obtain ⟨now, rest, rfl, hrest⟩ := course_hand_iff.mp h
    obtain ⟨rfl, rfl, rfl⟩ := course_done_iff.mp hrest
    exact ⟨now, rfl, rfl, rfl⟩
  · rintro ⟨now, rfl, rfl, rfl⟩
    exact .hand (.done _ _)

theorem course_look_of_take {p : Poll} {batch taken : List Entry} {left : Budget}
    (htake : p.budget.take batch = (taken, left)) (name : String) (now : Clock) (i : Intake) :
    (p.look name batch).Course i [.handed now (taken.map (·.message))]
      { cursors := ((newest? taken).map (p.cursors.advance name)).getD p.cursors
        budget := left
        tally := p.tally + (readMessages now i (taken.map (·.message))).tally }
      (readMessages now i (taken.map (·.message))).intake := by
  refine course_look_iff.mpr ⟨now, ?_, ?_, ?_⟩
  all_goals simp [Poll.allowed, Poll.looked, htake]

/-- A poll comes on by reads: each asks for one log from where the cursor stands, unless the budget is
spent, and brings nothing or a batch. -/
inductive Reads (start : Int) : Poll → Intake → List Interaction → Poll → Intake → Prop where
  | done (p : Poll) (i : Intake) : Reads start p i [] p i
  | vain {p p' : Poll} {i i' : Intake} {asking rest : List Interaction} {name : String}
    (hunspent : p.budget.isSpent = false)
      (hasking : Asking name (p.cursors.startFor name start) asking []) (hrest : Reads start p i rest p' i') :
      Reads start p i (asking ++ rest) p' i'
  | looked {p p' : Poll} {i i' : Intake} {asking rest : List Interaction} {name : String}
    {batch : List Entry} {now : Clock}
      (hunspent : p.budget.isSpent = false)
      (hasking : Asking name (p.cursors.startFor name start) asking (batch.map fun e => (name, e)))
      (hrest : Reads start (p.looked name batch (readMessages now i (p.allowed batch)).tally)
        (readMessages now i (p.allowed batch)).intake rest p' i') :
      Reads start p i (asking ++ .handed now (p.allowed batch) :: rest) p' i'

namespace Reads
variable {start : Int} {p q p' : Poll}

theorem trans (h : Reads start p i steps q mid) (h' : Reads start q mid rest p' i') :
    Reads start p i (steps ++ rest) p' i' := by
  induction h with
  | done => exact h'
  | vain hunspent hasking _ ih =>
    rw [List.append_assoc]
    exact .vain hunspent hasking (ih h')
  | looked hunspent hasking _ ih =>
    rw [List.append_assoc]
    exact .looked hunspent hasking (ih h')

theorem ofVain (hunspent : p.budget.isSpent = false) (hasking : Asking name (p.cursors.startFor name start) steps []) :
    Reads start p i steps p i := by
  have h := Reads.vain (i := i) hunspent hasking (.done p i)
  rwa [List.append_nil] at h

theorem ofAnswered {batch : List Entry} (hunspent : p.budget.isSpent = false)
    (hasking : Asking name (p.cursors.startFor name start) steps (batch.map fun e => (name, e)))
    (hlook : (p.look name batch).Course i rest p' i') : Reads start p i (steps ++ rest) p' i' := by
  obtain ⟨now, rfl, rfl, rfl⟩ := course_look_iff.mp hlook
  exact .looked hunspent hasking (.done _ _)

end Reads

/-- A log stream to which something was added lately is read while the budget lasts. -/
theorem Poll.readStream_of_recent {s : Settings} {start : Int} {p : Poll} {stream : Stream}
    (hrecent : isRecent start stream = true) (hunspent : p.budget.isSpent = false) :
    p.readStream s start stream =
      (do
        match ← retry .entries (.entries s.group stream.name (p.cursors.startFor stream.name start) s.batchSize) with
        | .ok batch => p.look stream.name batch
        | .error _ => return p) :=
  if_neg (by simp [hrecent, hunspent])

theorem Poll.course_readStream_of_ok {s : Settings} {start : Int} {p p' : Poll} {stream : Stream}
    (hrecent : isRecent start stream = true) (hunspent : p.budget.isSpent = false) {batch : List Entry}
    (hlook : (p.look stream.name batch).Course i rest p' i') :
    (p.readStream s start stream).Course i
      (.asked (.entries s.group stream.name (p.cursors.startFor stream.name start) s.batchSize) (.ok batch) :: rest)
      p' i' := by
  rw [readStream_of_recent hrecent hunspent]
  exact (course_retry_of_ok _
    (c := .entries s.group stream.name (p.cursors.startFor stream.name start) s.batchSize) batch i).bind hlook

namespace Session.Course
variable {s : Settings} {start : Int} {p p' : Poll}

theorem readStream {stream : Stream} (h : (p.readStream s start stream).Course i steps p' i') :
    Reads start p i steps p' i' := by
  unfold Poll.readStream at h
  split at h
  · obtain ⟨rfl, rfl, rfl⟩ := course_pure_iff.mp h
    exact .done _ _
  · rename_i hread
    have hunspent : p.budget.isSpent = false := (Bool.or_eq_false_iff.mp (Bool.eq_false_iff.mpr hread)).2
    obtain ⟨asking, rest, reply, mid, rfl, hasked, hrest⟩ := course_bind_iff.mp h
    obtain ⟨rfl, hsettled⟩ := hasked.of_retry
    have hasking : Asking stream.name _ asking _ := hsettled.asking fun r hr => (Option.some.inj hr).symm
    cases reply with
    | ok batch => exact .ofAnswered hunspent hasking hrest
    | error e =>
      obtain ⟨rfl, rfl, rfl⟩ := course_pure_iff.mp hrest
      rw [List.append_nil]
      exact .ofVain hunspent hasking

theorem readStreams {streams : List Stream} (h : (p.readStreams s start streams).Course i steps p' i') :
    Reads start p i steps p' i' := by
  induction streams generalizing p i steps with
  | nil =>
    obtain ⟨rfl, rfl, rfl⟩ := course_pure_iff.mp h
    exact .done _ _
  | cons stream streams ih =>
    obtain ⟨first, rest, q, mid, rfl, hfirst, hrest⟩ := course_bind_iff.mp h
    exact hfirst.readStream.trans (ih hrest)

end Session.Course

/-! ### Polls -/

/-- A poll that has looked at nothing yet. -/
def Poll.fresh (s : Settings) (cursors : Cursors) : Poll := { cursors, budget := { limit := s.maxBytes } }

/-- Reads the group by a query if there is a pattern, and else log stream by log stream. -/
def Poll.readAll (s : Settings) (start : Int) (p : Poll) : Session (Except Failure Poll) :=
  match s.pattern.filter (· ≠ "") with
  | some pattern => p.readMatching s pattern start
  | none => p.readGroup s start

/-- What a poll comes to; one that fails leaves the cursors that it began with. -/
def Poll.polled (cursors : Cursors) : Except Failure Poll → Polled
  | .ok p => (.ok p.tally, p.cursors)
  | .error e => (.error e, cursors)

theorem poll_eq (s : Settings) (date : Instant) (cursors : Cursors) :
    poll s date cursors = do
      let outcome ← (Poll.fresh s (cursors.prune (windowStart date))).readAll s (windowStart date)
      return Poll.polled (cursors.prune (windowStart date)) outcome := by
  unfold poll Poll.readAll
  cases s.pattern.filter (· ≠ "") with
  | some pattern => exact congrArg (Session.bind _) (funext fun outcome => by cases outcome <;> rfl)
  | none => exact congrArg (Session.bind _) (funext fun outcome => by cases outcome <;> rfl)

/-- The call that a poll begins with: the query, or else the list of log streams. -/
def opening (s : Settings) (start : Int) (cursors : Cursors) : Call :=
  match s.pattern.filter (· ≠ "") with
  | some pattern => .matching s.group pattern (cursors.startFor s.group start) s.batchSize
  | none => .streams s.group streamLimit

/-- How often the call that a poll begins with is made. -/
def openingRule (s : Settings) : RetryRule :=
  match s.pattern.filter (· ≠ "") with
  | some _ => .entries
  | none => .streams

/-- A poll begins with one call. When that fails the poll does, and has done nothing else; when it is
answered the poll goes on by reads, and succeeds. -/
inductive Opened (rule : RetryRule) (c : Call) (start : Int) (p : Poll) (i : Intake) :
    List Interaction → Except Failure Poll → Intake → Prop where
  | failed {steps : List Interaction} {e : Failure} (h : (retry rule c).Course i steps (.error e) i) :
      Opened rule c start p i steps (.error e) i
  | answered {opened rest : List Interaction} {items : List c.Item} {p' : Poll} {i' : Intake}
      (h : (retry rule c).Course i opened (.ok items) i) (hreads : Reads start p i (opened ++ rest) p' i') :
      Opened rule c start p i (opened ++ rest) (.ok p') i'

section Polls
variable {s : Settings} {date : Instant} {cursors cursors' : Cursors} {result : Except Failure Source.Tally}
  {start : Int} {p : Poll} {outcome : Except Failure Poll}

theorem Session.Course.readMatching {pattern : String} (h : (p.readMatching s pattern start).Course i steps outcome i')
    (hunspent : p.budget.isSpent = false) :
    Opened .entries (.matching s.group pattern (p.cursors.startFor s.group start) s.batchSize) start p i steps
      outcome i' := by
  obtain ⟨opened, rest, reply, mid, rfl, hopened, hrest⟩ := course_bind_iff.mp h
  obtain ⟨rfl, hsettled⟩ := hopened.of_retry
  cases reply with
  | error e =>
    obtain ⟨rfl, rfl, rfl⟩ := course_pure_iff.mp hrest
    simpa using Opened.failed hopened
  | ok batch =>
    obtain ⟨looking, last, p', mid', rfl, hlook, hdone⟩ := course_bind_iff.mp hrest
    obtain ⟨rfl, rfl, rfl⟩ := course_pure_iff.mp hdone
    have hasking : Asking s.group _ opened _ := hsettled.asking fun r hr => (Option.some.inj hr).symm
    simpa using Opened.answered hopened (.ofAnswered hunspent hasking hlook)

theorem Session.Course.readGroup (h : (p.readGroup s start).Course i steps outcome i')
    (hunspent : p.budget.isSpent = false) :
    Opened .streams (.streams s.group streamLimit) start p i steps outcome i' := by
  obtain ⟨opened, rest, reply, mid, rfl, hopened, hrest⟩ := course_bind_iff.mp h
  obtain ⟨rfl, hsettled⟩ := hopened.of_retry
  cases reply with
  | error e =>
    obtain ⟨rfl, rfl, rfl⟩ := course_pure_iff.mp hrest
    simpa using Opened.failed hopened
  | ok streams =>
    obtain ⟨reading, last, p', mid', rfl, hreads, hdone⟩ := course_bind_iff.mp hrest
    obtain ⟨rfl, rfl, rfl⟩ := course_pure_iff.mp hdone
    -- The list of log streams is no read.
    have hasking : Asking s.group (p.cursors.startFor s.group start) opened [] := hsettled.asking fun r hr => nomatch hr
    simpa using Opened.answered hopened ((Reads.ofVain hunspent hasking).trans hreads.readStreams)

theorem Session.Course.readAll (h : (p.readAll s start).Course i steps outcome i')
    (hunspent : p.budget.isSpent = false) :
    Opened (openingRule s) (opening s start p.cursors) start p i steps outcome i' := by
  unfold Poll.readAll at h
  cases hmode : s.pattern.filter (· ≠ "") with
  | some pattern =>
    simp only [hmode] at h
    simp only [opening, openingRule, hmode]
    exact h.readMatching hunspent
  | none =>
    simp only [hmode] at h
    simp only [opening, openingRule, hmode]
    exact h.readGroup hunspent

theorem course_poll_iff {polled : Polled} :
    (poll s date cursors).Course i steps polled i' ↔
      ∃ outcome, polled = Poll.polled (cursors.prune (windowStart date)) outcome ∧
      ((Poll.fresh s (cursors.prune (windowStart date))).readAll s (windowStart date)).Course i steps outcome i' := by
  rw [poll_eq]
  constructor
  · intro h
    obtain ⟨first, rest, outcome, mid, rfl, hread, hrest⟩ := course_bind_iff.mp h
    obtain ⟨rfl, rfl, rfl⟩ := course_pure_iff.mp hrest
    exact ⟨outcome, rfl, by rwa [List.append_nil]⟩
  · rintro ⟨outcome, rfl, hread⟩
    exact hread.bind_nil (.done _ _)

/-- Whether it fails or not, a poll comes on by reads from where it begins, and counts and leaves what
these have come to. -/
theorem Session.Course.reads (h : (poll s date cursors).Course i steps (result, cursors') i') :
    ∃ p', Reads (windowStart date) (.fresh s (cursors.prune (windowStart date))) i steps p' i' ∧
      countedRecords result = p'.tally.records ∧ cursors' = p'.cursors := by
  obtain ⟨outcome, heq, hread⟩ := course_poll_iff.mp h
  cases hread.readAll rfl with
  | failed hfailed =>
    obtain ⟨rfl, rfl⟩ := Prod.mk.inj heq
    obtain ⟨-, hsettled⟩ := hfailed.of_retry
    have hasking :
        Asking s.group ((cursors.prune (windowStart date)).startFor s.group (windowStart date)) steps [] := by
      refine asking_vain (fun r hr => ?_) hsettled
      unfold opening at hr
      split at hr
      · exact (Option.some.inj hr).symm
      · cases hr
    exact ⟨_, .ofVain rfl hasking, rfl, rfl⟩
  | answered hopened hreads =>
    obtain ⟨rfl, rfl⟩ := Prod.mk.inj heq
    exact ⟨_, hreads, rfl, rfl⟩

end Polls

end AdmissionWatch.LogGroup
