import AdmissionWatch.LogGroup.Poller
import AdmissionWatch.Proofs.Intake
import AdmissionWatch.Source.PolicyEvents

/-!
# Passes over sources, step by step

A pass over a source does not hold the intake while it runs: between two lines, two objects or two
messages anything else may happen. An errand is what is left to do of a pass. Each of its steps looks
at one record at most, and what it does to the intake is one submission or none (`go_intake`), of the
event that `found?` names. An errand that nothing comes between does what the pass does
(`goOn_lines`, `goOn_objects`, `goOn_session`).
-/

namespace AdmissionWatch.Source

open Time LogGroup

/-! ### What a record submits -/

/-- The event of an audit record with its identifier, if it is a violation that has one. -/
def violation? (date : Instant) (source : String) (r : Audit.Record) : Option (String × Event) :=
  match Detection.audit? r with
  | some c => if r.auditId = "" then none else some (r.auditId, .ofAudit date r c source)
  | none => none

/-- The event of a line of an audit log, with the identifier that it is submitted under. -/
def AuditLog.found? (date : Instant) (line : List UInt8) : Option (String × Event) :=
  match text? line with
  | none => none
  | some line =>
    if Text.trimmed line = "" then none
    else
      match Audit.Record.read (Text.trimmed line) with
      | .ok r => violation? date sourceName r
      | .error _ => none

/-- The event of a message of a log group, with the identifier that it is submitted under. -/
def messageFound? (date : Instant) (message : String) : Option (String × Event) :=
  match Audit.Record.read message with
  | .ok r => violation? date LogGroup.sourceName r
  | .error _ => none

/-- The event of a listed object, with the identifier that it is submitted under; none if its version is known. -/
def PolicyEvents.found? (date : Instant) (versions : Versions) (object : Json) : Option (String × Event) :=
  if !Detection.isAuditOnlyPolicyEvent object || versions.get? (uid object) = some (version object) then none
  else
    match Event.ofPolicyEvent date object with
    | .ok e => some (key object, e)
    | .error _ => none

/-- The intake after it was submitted an event, if there is one. -/
def receive (i : Intake) (now : Moment) : Option (String × Event) → Intake
  | some (id, e) => (i.submit id e now).2
  | none => i

theorem submitRecord_intake (now : Clock) (source : String) (p : Pass) (r : Audit.Record) :
    (p.submitRecord now source r).intake = receive p.intake now.moment (violation? now.date source r) := by
  unfold Pass.submitRecord violation?
  cases Detection.audit? r with
  | none => rfl
  | some c =>
    by_cases hid : r.auditId = ""
    · simp [hid, receive]
    · simp [hid, receive]

theorem scanLine_intake (now : Clock) (p : Pass) (line : List UInt8) :
    (AuditLog.scanLine now p line).intake = receive p.intake now.moment (AuditLog.found? now.date line) := by
  unfold AuditLog.scanLine AuditLog.found?
  cases AuditLog.text? line with
  | none => rfl
  | some line =>
    simp only [AuditLog.scanText]
    by_cases hblank : Text.trimmed line = ""
    · simp [hblank, receive]
    · simp only [hblank, ↓reduceIte]
      cases Audit.Record.read (Text.trimmed line) with
      | error _ => rfl
      | ok r => exact submitRecord_intake now _ _ r

theorem readMessage_intake (now : Clock) (p : Pass) (message : String) :
    (readMessage now p message).intake = receive p.intake now.moment (messageFound? now.date message) := by
  unfold readMessage messageFound?
  cases Audit.Record.read message with
  | error _ => rfl
  | ok r => exact submitRecord_intake now _ _ r

theorem look_intake (now : Clock) (p : PolicyEvents.Poll) (object : Json) :
    (p.look now object).intake = receive p.intake now.moment (PolicyEvents.found? now.date p.versions object) := by
  unfold PolicyEvents.Poll.look PolicyEvents.found?
  cases hpolicy : Detection.isAuditOnlyPolicyEvent object with
  | false => rfl
  | true =>
    by_cases hknown : p.versions.get? (PolicyEvents.uid object) = some (PolicyEvents.version object)
    · simp [hknown, receive]
    · simp only [Bool.not_true, Bool.false_eq_true, ↓reduceIte, hknown, decide_false, Bool.or_self]
      cases Event.ofPolicyEvent now.date object with
      | error _ => rfl
      | ok e => rfl

/-! ### Errands -/

/-- What is left to do of a pass over a source. -/
inductive Errand where
  | lines (rest : List (List UInt8)) (tally : Tally)
  | objects (rest : List Json) (versions : PolicyEvents.Versions) (tally : Tally)
  /-- What is to be done next of a poll of a log group. -/
  | session (rest : Session Polled)
  /-- Messages that a poll of a log group has handed over; it goes on when they have been looked at. -/
  | messages (rest : List String) (tally : Tally) (resume : Tally → Session Polled)

namespace Errand

/-- A pass over an audit log with this content. -/
def ofContent (content : List UInt8) : Errand := lines (AuditLog.lines content) {}

/-- A poll of policy events that lists these objects. -/
def ofListing (versions : PolicyEvents.Versions) (listed : List Json) : Errand :=
  objects listed (PolicyEvents.retain listed versions) {}

/-- A poll of a log group. -/
def ofLogGroup (settings : Settings) (date : Instant) (cursors : Cursors) : Errand :=
  session (poll settings date cursors)

/-- The event that the next step submits, if it submits one. -/
def found? (date : Instant) : Errand → Option (String × Event)
  | lines (line :: _) _ => AuditLog.found? date line
  | objects (object :: _) versions _ => PolicyEvents.found? date versions object
  | messages (message :: _) _ _ => messageFound? date message
  | _ => none

/-- Takes the next step. A call is answered with `reply`, a pause ends as `isCut` says. -/
def go (now : Clock) (reply : (c : LogGroup.Call) → c.Reply) (isCut : Bool) : Errand → Intake → Errand × Intake
  | lines (line :: rest) tally, intake =>
    let p := AuditLog.scanLine now { tally, intake } line
    (lines rest p.tally, p.intake)
  | objects (object :: rest) versions tally, intake =>
    let p := PolicyEvents.Poll.look now { tally, intake, versions } object
    (objects rest p.versions p.tally, p.intake)
  | session (.ask c resume), intake => (session (resume (reply c)), intake)
  | session (.pause _ resume), intake => (session (resume isCut), intake)
  | session (.hand texts resume), intake => (messages texts {} resume, intake)
  | messages (message :: rest) tally resume, intake =>
    let p := readMessage now { tally, intake } message
    (messages rest p.tally resume, p.intake)
  | messages [] tally resume, intake => (session (resume tally), intake)
  | e, intake => (e, intake)

/-- A step of an errand submits what it finds and does nothing else to the intake. -/
theorem go_intake (now : Clock) (reply : (c : LogGroup.Call) → c.Reply) (isCut : Bool) (e : Errand) (i : Intake) :
    (e.go now reply isCut i).2 = receive i now.moment (e.found? now.date) := by
  cases e with
  | lines rest tally =>
    cases rest with
    | nil => rfl
    | cons line rest => exact scanLine_intake now _ line
  | objects rest versions tally =>
    cases rest with
    | nil => rfl
    | cons object rest => exact look_intake now _ object
  | session rest => cases rest <;> rfl
  | messages rest tally resume =>
    cases rest with
    | nil => rfl
    | cons message rest => exact readMessage_intake now _ message

/-! ### Errands that nothing comes between -/

/-- Takes so many steps in a row at one time. -/
def goOn (now : Clock) (reply : (c : LogGroup.Call) → c.Reply) (isCut : Bool) :
    Nat → Errand × Intake → Errand × Intake
  | 0, s => s
  | n + 1, (e, i) => goOn now reply isCut n (e.go now reply isCut i)

section
variable (now : Clock) (reply : (c : LogGroup.Call) → c.Reply) (isCut : Bool)

theorem goOn_lines (rest : List (List UInt8)) (tally : Tally) (intake : Intake) :
    let p := rest.foldl (AuditLog.scanLine now) { tally, intake }
    goOn now reply isCut rest.length (lines rest tally, intake) = (lines [] p.tally, p.intake) := by
  induction rest generalizing tally intake with
  | nil => rfl
  | cons line rest ih => exact ih _ _

/-- So a pass over an audit log is a scan of the file. -/
theorem goOn_ofContent (content : List UInt8) (intake : Intake) :
    (goOn now reply isCut (AuditLog.lines content).length (ofContent content, intake)).2 =
      (AuditLog.scan now intake content).intake :=
  congrArg Prod.snd (goOn_lines now reply isCut (AuditLog.lines content) {} intake)

theorem goOn_objects (rest : List Json) (versions : PolicyEvents.Versions) (tally : Tally) (intake : Intake) :
    let p := rest.foldl (PolicyEvents.Poll.look now) { tally, intake, versions }
    goOn now reply isCut rest.length (objects rest versions tally, intake) =
      (objects [] p.versions p.tally, p.intake) := by
  induction rest generalizing versions tally intake with
  | nil => rfl
  | cons object rest ih => exact ih _ _ _

/-- So a poll of policy events looks at the whole list. -/
theorem goOn_ofListing (versions : PolicyEvents.Versions) (listed : List Json) (intake : Intake) :
    (goOn now reply isCut listed.length (ofListing versions listed, intake)).2 =
      (PolicyEvents.poll now intake versions listed).intake :=
  congrArg Prod.snd (goOn_objects now reply isCut listed (PolicyEvents.retain listed versions) {} intake)

theorem goOn_add (n m : Nat) (s : Errand × Intake) :
    goOn now reply isCut (n + m) s = goOn now reply isCut m (goOn now reply isCut n s) := by
  induction n generalizing s with
  | zero => rw [Nat.zero_add]; rfl
  | succ n ih =>
    rw [Nat.succ_add]
    exact ih _

/-- Messages that are handed over are read in turn, and then the poll goes on. -/
theorem goOn_messages (texts : List String) (tally : Tally) (resume : Tally → Session Polled) (intake : Intake) :
    let p := texts.foldl (readMessage now) { tally, intake }
    goOn now reply isCut (texts.length + 1) (messages texts tally resume, intake) =
      (session (resume p.tally), p.intake) := by
  induction texts generalizing tally intake with
  | nil => rfl
  | cons text rest ih => exact ih _ _

/-- What is left of a session that has come so far. -/
def ofProgress : Session.Progress Polled → Errand
  | .over result => session (.done result)
  | .waiting d resume => session (.pause d resume)

/-- So what a poller does until it has to wait, an errand does in steps. -/
theorem goOn_session (rest : Session Polled) (intake : Intake) :
    ∃ n, goOn now reply isCut n (session rest, intake) =
      (rest.advance (m := Id) reply now isCut intake).map ofProgress id := by
  induction rest generalizing intake with
  | done result => exact ⟨0, rfl⟩
  | ask c resume ih =>
    obtain ⟨n, hn⟩ := ih (reply c) intake
    exact ⟨n + 1, hn⟩
  | pause d resume ih =>
    cases isCut with
    | false => exact ⟨0, rfl⟩
    | true =>
      obtain ⟨n, hn⟩ := ih true intake
      exact ⟨n + 1, hn⟩
  | hand texts resume ih =>
    obtain ⟨n, hn⟩ := ih (readMessages now intake texts).tally (readMessages now intake texts).intake
    refine ⟨texts.length + 1 + n + 1, ?_⟩
    show goOn now reply isCut (texts.length + 1 + n) (messages texts {} resume, intake) = _
    rw [goOn_add, goOn_messages]
    exact hn

end

end Errand

end AdmissionWatch.Source
