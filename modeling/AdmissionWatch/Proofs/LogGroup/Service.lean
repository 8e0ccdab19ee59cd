import AdmissionWatch.LogGroup.Poller
import AdmissionWatch.Proofs.LogGroup.Session

/-!
# A log service

The surroundings of a poll, made up: log streams that only grow, and in the order of times, listings
and failures and cuts as a plan has them, and an intake that looks at what it is handed. The service
keeps a record: which entries were handed over, by their places, and what every read was asked for.
Whatever happens in it, the log streams and the record only grow (`Extends`).
-/

namespace AdmissionWatch.LogGroup

open Time

/-! ### Log streams -/

/-- An entry that a log stream has taken in; each has a time. -/
structure Stored where
  time : Int
  ingestion : Option Int := none
  message : String
  deriving DecidableEq, Repr

/-- An entry as the service answers with it. -/
def Stored.entry (name : String) (e : Stored) : Entry :=
  { time := some e.time, ingestion := e.ingestion, stream := some name, message := e.message }

/-- A log stream holds entries in the order of their times. -/
structure Log where
  stored : List Stored
  sorted : stored.Pairwise fun a b => a.time ≤ b.time

namespace Log

/-- Takes an entry in, unless it is older than another. -/
def append (l : Log) (e : Stored) : Log :=
  if h : ∀ a ∈ l.stored, a.time ≤ e.time then
    ⟨l.stored ++ [e], List.pairwise_append.mpr
      ⟨l.sorted, List.pairwise_singleton _ _, fun a ha _ hb => List.mem_singleton.mp hb ▸ h a ha⟩⟩
  else l

theorem append_extends (l : Log) (e : Stored) : l.stored <+: (l.append e).stored := by
  unfold append
  split
  · exact List.prefix_append _ _
  · exact List.prefix_rfl

/-- The entries from a time on, each with its position. -/
def since (l : Log) (time : Int) : List (Stored × Nat) :=
  l.stored.zipIdx.filter fun f => decide (time ≤ f.1.time)

theorem mem_since {l : Log} {time : Int} {e : Stored} {i : Nat} :
    (e, i) ∈ l.since time ↔ l.stored[i]? = some e ∧ time ≤ e.time := by
  simp [since, List.mem_zipIdx_iff_getElem?]

theorem sorted_since (l : Log) (time : Int) : (l.since time).Pairwise fun a b => a.1.time ≤ b.1.time := by
  refine List.Pairwise.filter _ ?_
  have hsorted := l.sorted
  rw [← List.zipIdx_map_fst 0 l.stored, List.pairwise_map] at hsorted
  exact hsorted

end Log

/-! ### The service -/

/-- What the service and those around it do at the time of an interaction. -/
structure Happening where
  /-- The entries that come in first, each with the name of its log stream. -/
  appended : List (String × Stored) := []
  /-- What a list of log streams would be answered with. -/
  listing : Except Failure (List Stream) := .ok []
  /-- Why log streams cannot be read, if so. -/
  failure? : Option Failure := none
  /-- Whether a pause is cut off. -/
  isCut : Bool := false
  now : Clock

/-- Where an entry is: the name of its log stream and its position there. -/
abbrev Place := String × Nat

/-- A read of a log stream as it was asked for. -/
structure Read where
  name : String
  since : Int
  /-- The start of the window of the poll. -/
  start : Int
  /-- The entries of the log stream, and those processed, at that time. -/
  stored : List Stored
  processed : List Place

/-- A log service, and the intake to which its messages go. -/
structure Service where
  logs : String → Log
  plan : Nat → Happening
  intake : Intake
  /-- The starts of the windows of the polls, the latest first. -/
  starts : List Int := []
  /-- The places of the entries that were answered last. -/
  batch : List Place := []
  /-- The places of the entries that were looked at, and their messages. -/
  processed : List Place := []
  handed : List String := []
  reads : List Read := []

namespace Service

/-- The entry at a place. -/
def stored? (s : Service) (p : Place) : Option Stored := (s.logs p.1).stored[p.2]?

/-- The start of the window of the latest poll. -/
def start (s : Service) : Int := s.starts.headD 0

/-- Appends an entry to a log stream. -/
def receive (s : Service) (e : String × Stored) : Service :=
  { s with logs := fun name => if name = e.1 then (s.logs name).append e.2 else s.logs name }

/-- Lets happen what is planned next. -/
def proceed (s : Service) : Service :=
  { (s.plan 0).appended.foldl receive s with plan := fun n => s.plan (n + 1) }

/-- The first entries of a log stream from a time on, at most `limit`. -/
def find (s : Service) (name : String) (since : Int) (limit : Nat) : List (Stored × Nat) :=
  ((s.logs name).since since).take limit

/-- Notes a read, with what is stored and processed at that time. -/
def noteRead (s : Service) (name : String) (since : Int) : Service :=
  { s with reads := s.reads ++ [⟨name, since, s.start, (s.logs name).stored, s.processed⟩] }

/-- Answers a read with what is found, unless it fails. -/
def answerRead (s : Service) (name : String) (since : Int) (limit : Nat) :
    Option Failure → Except Failure (List Entry) × Service
  | some e => (.error e, s)
  | none =>
    (.ok ((s.find name since limit).map fun f => f.1.entry name),
      { s with batch := (s.find name since limit).map fun f => (name, f.2) })

/-- Answers a call, after what is planned next has happened. A listing is answered as planned, a read from
the log stream, and any other call with nothing. -/
def ask (s : Service) : (c : Call) → c.Reply × Service
  | .streams .. => ((s.plan 0).listing, s.proceed)
  | .entries _ name since limit => (s.proceed.noteRead name since).answerRead name since limit (s.plan 0).failure?
  | .groups .. | .matching .. => (.ok [], s.proceed)

/-- Has the intake look at messages, which are those of the first entries of the last answer. -/
def hand (s : Service) (messages : List String) : Source.Tally × Service :=
  let p := readMessages (s.plan 0).now s.intake messages
  (p.tally,
    { s.proceed with
      intake := p.intake
      processed := s.processed ++ s.batch.take messages.length
      handed := s.handed ++ messages })

/-- The service as the surroundings of a session. -/
def surroundings : Session.Surroundings Service where
  ask c s := s.ask c
  pause _ s := ((s.plan 0).isCut, s.proceed)
  hand messages s := s.hand messages

/-! ### What grows -/

/-- A later state of a service: logs and what was processed have only grown, and no poll has begun. -/
structure Extends (s t : Service) : Prop where
  logs : ∀ name, (s.logs name).stored <+: (t.logs name).stored
  starts : t.starts = s.starts
  processed : s.processed <+: t.processed

namespace Extends
variable {s t u : Service}

theorem refl (s : Service) : Extends s s := ⟨fun _ => List.prefix_rfl, rfl, List.prefix_rfl⟩

theorem trans (h : Extends s t) (h' : Extends t u) : Extends s u where
  logs name := (h.logs name).trans (h'.logs name)
  starts := h'.starts.trans h.starts
  processed := h.processed.trans h'.processed

/-- An entry stays where it is. -/
theorem stored? (h : Extends s t) {p : Place} {e : Stored} (he : s.stored? p = some e) : t.stored? p = some e := by
  obtain ⟨later, hlater⟩ := h.logs p.1
  unfold Service.stored? at he ⊢
  rw [← hlater, List.getElem?_append_left (List.getElem?_eq_some_iff.mp he).1]
  exact he

/-- What has come in stands after what was there. -/
theorem stored?_of_lt (h : Extends s t) {name : String} {i j : Nat} {a e : Stored} (ha : s.stored? (name, i) = some a)
    (hlt : j < i) (he : t.stored? (name, j) = some e) : s.stored? (name, j) = some e := by
  obtain ⟨later, hlater⟩ := h.logs name
  have hin : i < (s.logs name).stored.length := (List.getElem?_eq_some_iff.mp ha).1
  unfold Service.stored? at he ⊢
  rw [← hlater, List.getElem?_append_left (Nat.lt_trans hlt hin)] at he
  exact he

/-- What has come in is not older than what was there, so an entry that is older was there. -/
theorem stored?_of_time_lt (h : Extends s t) {name : String} {i : Nat} {e : Stored} (he : t.stored? (name, i) = some e)
    {a : Stored} (ha : a ∈ (s.logs name).stored) (hlt : e.time < a.time) : s.stored? (name, i) = some e := by
  obtain ⟨later, hlater⟩ := h.logs name
  have hsorted := (t.logs name).sorted
  unfold Service.stored? at he ⊢
  rw [← hlater] at hsorted he
  rcases Nat.lt_or_ge i (s.logs name).stored.length with hin | hbeyond
  · rw [List.getElem?_append_left hin] at he
    exact he
  · rw [List.getElem?_append_right hbeyond] at he
    have hle := (List.pairwise_append.mp hsorted).2.2 a ha e (List.mem_of_getElem? he)
    omega

end Extends

theorem foldl_receive (entries : List (String × Stored)) (s : Service) :
    ∃ logs, entries.foldl receive s = { s with logs } ∧ ∀ name, (s.logs name).stored <+: (logs name).stored := by
  induction entries generalizing s with
  | nil => exact ⟨s.logs, rfl, fun _ => List.prefix_rfl⟩
  | cons e rest ih =>
    obtain ⟨logs, heq, hgrow⟩ := ih (s.receive e)
    refine ⟨logs, heq, fun name => List.IsPrefix.trans ?_ (hgrow name)⟩
    unfold receive
    dsimp only
    split
    · exact (s.logs name).append_extends e.2
    · exact List.prefix_rfl

/-- What happens touches nothing but the log streams, which only grow. -/
theorem proceed_eq (s : Service) : ∃ logs, s.proceed = { s with logs, plan := fun n => s.plan (n + 1) } ∧
    ∀ name, (s.logs name).stored <+: (logs name).stored := by
  obtain ⟨logs, heq, hgrow⟩ := foldl_receive (s.plan 0).appended s
  refine ⟨logs, ?_, hgrow⟩
  unfold proceed
  rw [heq]

theorem proceed_extends (s : Service) : Extends s s.proceed := by
  obtain ⟨logs, heq, hgrow⟩ := s.proceed_eq
  rw [heq]
  exact ⟨hgrow, rfl, List.prefix_rfl⟩

theorem proceed_processed (s : Service) : s.proceed.processed = s.processed := by
  obtain ⟨logs, heq, -⟩ := s.proceed_eq
  rw [heq]

theorem hand_extends (s : Service) (messages : List String) : Extends s (s.hand messages).2 := by
  obtain ⟨logs, heq, hgrow⟩ := s.proceed_eq
  unfold hand
  rw [heq]
  exact ⟨hgrow, rfl, List.prefix_append _ _⟩

theorem ask_extends (s : Service) (c : Call) : Extends s (s.ask c).2 := by
  cases c with
  | groups start limit => exact s.proceed_extends
  | streams group limit => exact s.proceed_extends
  | matching group pattern since limit => exact s.proceed_extends
  | entries group name since limit =>
    refine s.proceed_extends.trans ?_
    show Extends s.proceed (answerRead _ name since limit (s.plan 0).failure?).2
    cases (s.plan 0).failure? with
    | none => exact ⟨fun _ => List.prefix_rfl, rfl, List.prefix_rfl⟩
    | some e => exact ⟨fun _ => List.prefix_rfl, rfl, List.prefix_rfl⟩

/-- Whatever a session does, the log streams and the record only grow. -/
theorem run_extends {α : Type} (x : Session α) (s : Service) : Extends s (x.run surroundings s).2 :=
  Session.run_keeps Extends.refl Extends.trans (fun c s => s.ask_extends c) (fun _ s => s.proceed_extends)
    (fun messages s => s.hand_extends messages) x s

end Service

end AdmissionWatch.LogGroup
