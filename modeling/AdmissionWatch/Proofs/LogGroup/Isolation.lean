import AdmissionWatch.Proofs.LogGroup.Reads
import AdmissionWatch.Proofs.LogGroup.Retiming

/-!
# Failures

A poll that fails has handed nothing to the intake and has only dropped the cursors that its window has
left behind; it fails exactly when the call that it begins with fails for good. When a log stream cannot
be read (`FailedRead`) the poll goes on as if the read had brought no entries: both ways it goes on with
the same reads, and comes to the same counts, cursors and intake (`failures_leave_no_trace`). Since a
read that is tried again takes time, the two may also be compared with the clock reading differently
from there on, as long as no entry of the window expires in between.
-/

namespace AdmissionWatch.LogGroup

open Time Session Dedup

/-! ### Sessions -/

theorem Session.bind_assoc {α β γ : Type} (x : Session α) (f : α → Session β) (g : β → Session γ) :
    x >>= f >>= g = x >>= fun a => f a >>= g := by
  change (x.bind f).bind g = x.bind fun a => (f a).bind g
  induction x with
  | done a => rfl
  | ask c resume ih => exact congrArg (Session.ask c) (funext ih)
  | pause d resume ih => exact congrArg (Session.pause d) (funext ih)
  | hand messages resume ih => exact congrArg (Session.hand messages) (funext ih)

theorem Poll.readStreams_append (s : Settings) (start : Int) (before after : List Stream) (p : Poll) :
    p.readStreams s start (before ++ after) = p.readStreams s start before >>= fun q =>
      q.readStreams s start after := by
  induction before generalizing p with
  | nil => rfl
  | cons stream before ih =>
    rw [List.cons_append, readStreams, readStreams, Session.bind_assoc]
    exact congrArg _ (funext ih)

theorem course_look_nil (p : Poll) (name : String) (now : Clock) (i : Intake) :
    (p.look name []).Course i [.handed now []] p i :=
  course_look_of_take rfl name now i

/-! ### Reads that fail -/

/-- A poll of the log streams has come to one, and the read of it fails for good. -/
structure FailedRead (s : Settings) (date : Instant) (cursors : Cursors) (i : Intake) where
  before : List Stream
  stream : Stream
  after : List Stream
  /-- How the log streams were listed. -/
  listing : List Interaction
  /-- How those before this one were read. -/
  reading : List Interaction
  /-- How far the poll has come. -/
  p : Poll
  mid : Intake
  /-- How this one was read. -/
  failing : List Interaction
  failure : Failure
  unfiltered : s.pattern.filter (· ≠ "") = none
  listed : (retry .streams (.streams s.group streamLimit)).Course i listing (.ok (before ++ stream :: after)) i
  through : ((Poll.fresh s (cursors.prune (windowStart date))).readStreams s
    (windowStart date) before).Course i reading p mid
  recent : Poll.isRecent (windowStart date) stream = true
  unspent : p.budget.isSpent = false
  fails : (retry .entries
    (.entries s.group stream.name (p.cursors.startFor stream.name (windowStart date)) s.batchSize)).Course
    mid failing (.error failure) mid

namespace FailedRead
variable {s : Settings} {date : Instant} {cursors : Cursors} {i i' : Intake} {rest : List Interaction} {polled : Polled}

/-- The call of the read that failed. -/
def call (r : FailedRead s date cursors i) : Call :=
  .entries s.group r.stream.name (r.p.cursors.startFor r.stream.name (windowStart date)) s.batchSize

/-- The steps of the poll before the read. -/
def past (r : FailedRead s date cursors i) : List Interaction := r.listing ++ r.reading

/-- The same read, if it had brought no entries. -/
def empty (r : FailedRead s date cursors i) (now : Clock) : List Interaction := [.asked r.call (.ok []), .handed now []]

theorem course_failing (r : FailedRead s date cursors i) :
    (r.p.readStream s (windowStart date) r.stream).Course r.mid r.failing r.p r.mid := by
  rw [Poll.readStream_of_recent r.recent r.unspent]
  exact r.fails.bind_nil (.done _ _)

theorem course_empty (r : FailedRead s date cursors i) (now : Clock) :
    (r.p.readStream s (windowStart date) r.stream).Course r.mid (r.empty now) r.p r.mid :=
  Poll.course_readStream_of_ok r.recent r.unspent (course_look_nil r.p r.stream.name now r.mid)

/-- After a read that leaves everything as it is the poll goes on with the log streams that are left. -/
theorem course_iff (r : FailedRead s date cursors i) {read : List Interaction}
    (hread : (r.p.readStream s (windowStart date) r.stream).Course r.mid read r.p r.mid) :
    (poll s date cursors).Course i (r.past ++ (read ++ rest)) polled i' ↔
      ∃ p', polled = (.ok p'.tally, p'.cursors) ∧
        (r.p.readStreams s (windowStart date) r.after).Course r.mid rest p' i' := by
  have hrest : ∀ outcome, ((Poll.fresh s (cursors.prune (windowStart date))).readAll s (windowStart date)).Course i
      (r.past ++ (read ++ rest)) outcome i' ↔
        ∃ p', outcome = .ok p' ∧ (r.p.readStreams s (windowStart date) r.after).Course r.mid rest p' i' := by
    intro outcome
    unfold Poll.readAll past
    simp only [r.unfiltered]
    unfold Poll.readGroup
    rw [List.append_assoc, course_bind_append_iff r.listed]
    dsimp only
    rw [Poll.readStreams_append, Session.bind_assoc, course_bind_append_iff r.through, Poll.readStreams,
      Session.bind_assoc, course_bind_append_iff hread, course_bind_iff]
    constructor
    · rintro ⟨first, last, p', mid', rfl, hstreams, hdone⟩
      obtain ⟨rfl, rfl, rfl⟩ := course_pure_iff.mp hdone
      exact ⟨p', rfl, by rwa [List.append_nil]⟩
    · rintro ⟨p', rfl, hstreams⟩
      exact ⟨rest, [], p', i', (List.append_nil rest).symm, hstreams, .done _ _⟩
  rw [course_poll_iff]
  constructor
  · rintro ⟨outcome, rfl, hcourse⟩
    obtain ⟨p', rfl, hstreams⟩ := (hrest outcome).mp hcourse
    exact ⟨p', rfl, hstreams⟩
  · rintro ⟨p', rfl, hstreams⟩
    exact ⟨.ok p', rfl, (hrest _).mpr ⟨p', rfl, hstreams⟩⟩

end FailedRead

/-! ### Entries that do not expire -/

/-- The moments of one entry in two courses: an entry from before has one, and one that came in since
has those of readings that correspond. -/
inductive Counterpart (R : Clock → Clock → Prop) (old : List Moment) : Moment → Moment → Prop where
  | old {m : Moment} (h : m ∈ old) : Counterpart R old m m
  | since {now now' : Clock} (h : R now now') : Counterpart R old now.moment now'.moment

/-- Between two readings that correspond no entry expires, be it one of the window or a later one. -/
def NoneExpires (R : Clock → Clock → Prop) (w : Window) : Prop :=
  ∀ now now', R now now' → ∀ m m', Counterpart R (w.order.map (·.2)) m m' →
    w.isLive now.moment m = w.isLive now'.moment m'

theorem NoneExpires.retiming {R : Clock → Clock → Prop} {w : Window} (h : NoneExpires R w) :
    Retiming R (Counterpart R (w.order.map (·.2))) w.ttl where
  moment := .since
  live hnow m m' hm := by simpa [Window.isLive] using h _ _ hnow m m' hm

theorem alike_self (R : Clock → Clock → Prop) {M : Moment → Moment → Prop} {i : Intake}
    (hcoherent : i.window.Coherent) (hM : ∀ e ∈ i.window.order, M e.2 e.2) : i.Alike R M i.window.ttl i where
  window :=
    ⟨⟨hcoherent, hcoherent⟩, ⟨rfl, rfl⟩, rfl, List.forall₂_same.mpr fun e he => ⟨rfl, hM e he⟩⟩
  metrics := rfl
  queue := List.forall₂_same.mpr fun e _ => .refl e
  capacity := rfl
  isClosed := rfl

theorem Session.Course.coherent {α : Type} {x : Session α} {i i' : Intake} {steps : List Interaction} {a : α}
    (h : x.Course i steps a i') (hcoherent : i.window.Coherent) : i'.window.Coherent := by
  -- A course is its own course by the same readings.
  have hsame : Retiming Eq Eq i.window.ttl := ⟨fun hnow => hnow ▸ rfl, fun hnow m m' hm => by rw [hnow, hm]⟩
  have hsteps : List.Forall₂ (Interaction.Retimed Eq) steps steps := by
    refine List.forall₂_same.mpr fun x _ => ?_
    cases x with
    | asked c reply => exact .asked c reply
    | paused d isCut => exact .paused d isCut
    | handed now messages => exact .handed rfl messages
  obtain ⟨j', -, halike⟩ := h.retimed hsame hsteps (alike_self Eq hcoherent fun _ _ => rfl)
  exact halike.window.coherent.1

/-- Whatever the service answers, refuses or cuts off. A poll that fails leaves the intake as it was, and
of the cursors those that are in the window. A poll fails exactly when the call that it begins with fails
for good. A log stream whose read fails for good might as well have had no entries: the poll goes on with
the same reads, counts, cursors and intake, and if the clock reads differently from there on, with an
intake that differs in times only as long as no entry of the window expires in between. -/
theorem failures_leave_no_trace (s : Settings) (date : Instant) (cursors : Cursors) (i : Intake) :
    (∀ steps e cursors' i', (poll s date cursors).Course i steps (.error e, cursors') i' →
      i' = i ∧ handed steps = [] ∧ ∀ c, c ∈ cursors' ↔ c ∈ cursors ∧ windowStart date ≤ c.2) ∧
    (∀ steps result cursors' i', (poll s date cursors).Course i steps (result, cursors') i' →
      ∃ opened rest reply, steps = opened ++ rest ∧
        (retry (openingRule s)
          (opening s (windowStart date) (cursors.prune (windowStart date)))).Course i opened reply i ∧
        ∀ e, result = .error e ↔ reply = .error e) ∧
    ∀ (r : FailedRead s date cursors i) (now : Clock),
      (∀ rest polled i', (poll s date cursors).Course i (r.past ++ (r.failing ++ rest)) polled i' ↔
        (poll s date cursors).Course i (r.past ++ (r.empty now ++ rest)) polled i') ∧
      ∀ (R : Clock → Clock → Prop) (rest rest' : List Interaction) polled i', i.window.Coherent →
        NoneExpires R r.mid.window →
        List.Forall₂ (Interaction.Retimed R) rest rest' →
        (poll s date cursors).Course i (r.past ++ (r.failing ++ rest)) polled i' →
        ∃ j', (poll s date cursors).Course i (r.past ++ (r.empty now ++ rest')) polled j' ∧
          i'.Alike R (Counterpart R (r.mid.window.order.map (·.2))) r.mid.window.ttl j' := by
  refine ⟨fun steps e cursors' i' h => ?_, fun steps result cursors' i' h => ?_,
    fun r now => ⟨fun rest polled i' => ?_, ?_⟩⟩
  · obtain ⟨outcome, heq, hread⟩ := course_poll_iff.mp h
    cases hread.readAll rfl with
    | failed hfailed =>
      obtain ⟨-, rfl⟩ := Prod.mk.inj heq
      obtain ⟨-, hsettled⟩ := hfailed.of_retry
      exact ⟨rfl, handed_vain hsettled, fun c => by simp [Cursors.prune]⟩
    | answered hopened hreads => cases heq
  · obtain ⟨outcome, heq, hread⟩ := course_poll_iff.mp h
    cases hread.readAll rfl with
    | @failed _ e hfailed =>
      obtain ⟨rfl, -⟩ := Prod.mk.inj heq
      exact ⟨steps, [], .error e, (List.append_nil _).symm, hfailed, fun _ => by simp⟩
    | @answered opened rest items p' _ hopened hreads =>
      obtain ⟨rfl, -⟩ := Prod.mk.inj heq
      exact ⟨opened, rest, .ok items, rfl, hopened, fun _ => by simp⟩
  · rw [r.course_iff r.course_failing, r.course_iff (r.course_empty now)]
  · intro R rest rest' polled i' hcoherent hexpires hsteps h
    obtain ⟨p', hpolled, hrest⟩ := (r.course_iff r.course_failing).mp h
    have hself := alike_self R (r.through.coherent hcoherent) fun e he =>
      Counterpart.old (R := R) (List.mem_map_of_mem (f := fun e => e.2) he)
    obtain ⟨j', hretimed, halike⟩ := hrest.retimed hexpires.retiming hsteps hself
    exact ⟨j', (r.course_iff (r.course_empty now)).mpr ⟨p', hpolled, hretimed⟩, halike⟩

/-- The first of two log streams cannot be read, and the second is read a second later than it would be. -/
theorem failures_leave_no_trace_second_stream :
    let s : Settings := { group := "g", region := "r" }
    let i : Intake := .create 1 .empty 0
    let late : Clock := ⟨⟨1001, 0⟩, 1000000000⟩
    let early : Clock := ⟨⟨1000, 0⟩, 0⟩
    let listing : List Interaction :=
      [.asked (.streams "g" 50)
        (.ok [{ name := "a", lastIngestion := some 900000 }, { name := "b", lastIngestion := some 900000 }])]
    let failing : List Interaction := [.asked (.entries "g" "a" 700000 100) (.error (.nonRetryableSource "x"))]
    let empty : List Interaction := [.asked (.entries "g" "a" 700000 100) (.ok []), .handed early []]
    let rest (now : Clock) : List Interaction :=
      [.asked (.entries "g" "b" 700000 100) (.ok [{ time := some 800000 }]), .handed now [""]]
    ∃ tally i', (poll s ⟨1000, 0⟩ []).Course i (listing ++ (failing ++ rest late))
      (.ok tally, [("b", 800000)]) i' ∧
      ∃ j', (poll s ⟨1000, 0⟩ []).Course i (listing ++ (empty ++ rest early)) (.ok tally, [("b", 800000)]) j' ∧
        i'.metrics = j'.metrics ∧ i'.queue.length = j'.queue.length := by
  intro s i late early listing failing empty rest
  let r : FailedRead s ⟨1000, 0⟩ [] i :=
    { before := []
      stream := { name := "a", lastIngestion := some 900000 }
      after := [{ name := "b", lastIngestion := some 900000 }]
      listing
      reading := []
      p := .fresh s []
      mid := i
      failing
      failure := .nonRetryableSource "x"
      unfiltered := rfl
      listed := .ask (.done _ _)
      through := .done _ _
      recent := rfl
      unspent := rfl
      fails := .ask (.done _ _) }
  let pass := readMessages late i [""]
  have htake : (Poll.fresh s []).budget.take [{ time := some 800000 }] =
      ([{ time := some 800000 }], { limit := s.maxBytes }) := by
    decide +kernel
  have hread : ((Poll.fresh s []).readStream s 700000 { name := "b", lastIngestion := some 900000 }).Course i
      (rest late)
      ⟨[("b", 800000)], { limit := s.maxBytes }, {} + pass.tally⟩ pass.intake :=
    Poll.course_readStream_of_ok rfl rfl (course_look_of_take htake "b" late i)
  have hcourse : (poll s ⟨1000, 0⟩ []).Course i (listing ++ (failing ++ rest late))
      (.ok ({} + pass.tally), [("b", 800000)])
      pass.intake :=
    (r.course_iff r.course_failing).mpr ⟨_, rfl, hread.bind_nil (.done _ _)⟩
  have hexpires : NoneExpires (fun now now' => now = late ∧ now' = early) i.window := by
    rintro now now' ⟨rfl, rfl⟩ m m' hm
    cases hm with
    | old hold => cases hold
    | since h =>
      obtain ⟨rfl, rfl⟩ := h
      simp [Window.isLive, Moment.elapsed]
  have hrest : List.Forall₂ (Interaction.Retimed fun now now' => now = late ∧ now' = early) (rest late)
      (rest early) :=
    .cons (.asked _ _) (.cons (.handed ⟨rfl, rfl⟩ _) .nil)
  obtain ⟨-, -, hread⟩ := failures_leave_no_trace s ⟨1000, 0⟩ [] i
  obtain ⟨j', hempty, halike⟩ := (hread r early).2 _ _ _ _ _ (.empty _ _) hexpires hrest hcourse
  exact ⟨_, _, hcourse, j', hempty, halike.metrics, halike.queue.length_eq⟩

end AdmissionWatch.LogGroup
