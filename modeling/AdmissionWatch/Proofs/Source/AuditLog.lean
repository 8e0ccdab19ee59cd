import AdmissionWatch.Proofs.Basics
import AdmissionWatch.Proofs.Source.Errand

/-!
# What a pass over an audit log does

Each line of a file is found to be something by itself, whatever stands before it and whatever the
intake holds, and a pass settles what it finds line by line (`scan_eq`). So the intake is submitted the
violations in the lines, in their order and nothing else, the counts are those of the lines and of the
outcomes, and a pass over two texts with a line end between them is a pass over the first and then one
over the second (`scan_filters_lines`).
-/

namespace AdmissionWatch

open Time

/-! ### Submissions in turn -/

/-- Submits events in turn at one time. Also answered: what became of each. -/
def Intake.submitAll (now : Moment) : List (String × Event) → Intake → List Submission × Intake
  | [], i => ([], i)
  | call :: rest, i =>
    let answer := i.submit call.1 call.2 now
    let answers := submitAll now rest answer.2
    (answer.1 :: answers.1, answers.2)

theorem Intake.length_submitAll (now : Moment) (calls : List (String × Event)) (i : Intake) :
    (i.submitAll now calls).1.length = calls.length := by
  induction calls generalizing i with
  | nil => rfl
  | cons call rest ih => simp [submitAll, ih]

theorem Intake.submitAll_append (now : Moment) (calls later : List (String × Event)) (i : Intake) :
    i.submitAll now (calls ++ later) =
      ((i.submitAll now calls).1 ++ ((i.submitAll now calls).2.submitAll now later).1,
        ((i.submitAll now calls).2.submitAll now later).2) := by
  induction calls generalizing i with
  | nil => rfl
  | cons call rest ih => simp [submitAll, ih]

namespace Source

/-! ### Counts -/

/-- The counts of submissions that came to these outcomes. -/
def Tally.ofOutcomes (outcomes : List Submission) : Tally where
  violations := outcomes.length
  queued := outcomes.count .queued
  duplicates := outcomes.count .duplicate
  dropped := outcomes.count .dropped + outcomes.count .closed

theorem Tally.violations_ofOutcomes (outcomes : List Submission) :
    (Tally.ofOutcomes outcomes).violations =
      (Tally.ofOutcomes outcomes).queued + (Tally.ofOutcomes outcomes).duplicates +
        (Tally.ofOutcomes outcomes).dropped := by
  simp only [ofOutcomes]
  induction outcomes with
  | nil => rfl
  | cons outcome rest ih =>
    rw [List.length_cons, ih]
    cases outcome <;> simp <;> omega

theorem Tally.add_assoc (s t u : Tally) : s + t + u = s + (t + u) := by
  simp only [HAdd.hAdd, Add.add, Tally.add, Tally.mk.injEq]
  exact ⟨Nat.add_assoc .., Nat.add_assoc .., Nat.add_assoc .., Nat.add_assoc .., Nat.add_assoc .., Nat.add_assoc ..⟩

theorem Tally.zero_add (t : Tally) : {} + t = t := by
  simp only [HAdd.hAdd, Add.add, Tally.add]
  cases t
  simp

namespace AuditLog

/-! ### Lines -/

/-- The lines are the pieces between line ends, but for an empty one at the end. -/
theorem splitOn_eq (content : List UInt8) :
    ∃ last, (last = [] ∨ last = [[]]) ∧ content.splitOn lineEnd = lines content ++ last := by
  induction content with
  | nil => exact ⟨[[]], .inr rfl, by simp [lines]⟩
  | cons b rest ih =>
    obtain ⟨last, hlast, hrest⟩ := ih
    have hlines : lines (b :: rest) = addByte b (lines rest) := rfl
    rw [List.splitOn_cons_eq_if_modifyHead, hrest, hlines]
    by_cases hb : b = lineEnd
    · exact ⟨last, hlast, by simp [addByte, hb]⟩
    · rw [if_neg (by simpa using hb)]
      simp only [addByte, if_neg hb]
      cases hcut : lines rest with
      | cons line more => exact ⟨last, hlast, rfl⟩
      | nil =>
        -- Without a line the rest is empty, and the one piece is the byte.
        rcases hlast with rfl | rfl
        · rw [hcut] at hrest
          exact absurd hrest (List.splitOn_ne_nil _ _)
        · exact ⟨[], .inl rfl, rfl⟩

/-- What is done for each line is done for each piece, when nothing is done for an empty one. -/
theorem foldl_lines {α : Type} {f : α → List UInt8 → α} (hempty : ∀ a, f a [] = a) (a : α)
    (content : List UInt8) : (lines content).foldl f a = (content.splitOn lineEnd).foldl f a := by
  obtain ⟨last, rfl | rfl, hsplit⟩ := splitOn_eq content
  · rw [hsplit, List.append_nil]
  · simp [hsplit, hempty]

theorem splitOn_append (content later : List UInt8) :
    (content ++ lineEnd :: later).splitOn lineEnd = content.splitOn lineEnd ++ later.splitOn lineEnd :=
  List.splitOnP_append_cons content later (beq_self_eq_true lineEnd)

/-! ### Findings -/

/-- What a line is found to be. -/
inductive Finding where
  | blank
  /-- It is no text, or the text is no record. -/
  | malformed
  /-- It is the record of no violation, or of one without an identifier. -/
  | clean
  | violation (id : String) (e : Event)

namespace Finding

/-- What is submitted of a line. -/
def call? : Finding → Option (String × Event)
  | violation id e => some (id, e)
  | _ => none

/-- Whether a line counts as a record: all do but blank ones. -/
def isRecord : Finding → Bool
  | blank => false
  | _ => true

/-- Whether a line could not be read. -/
def isMalformed : Finding → Bool
  | malformed => true
  | _ => false

/-- What a finding does to the counts and to the intake. -/
def settle (now : Clock) (p : Pass) : Finding → Pass
  | blank => p
  | malformed => { p with tally := p.tally.addRecord.addMalformed }
  | clean => { p with tally := p.tally.addRecord }
  | violation id e =>
    let answer := p.intake.submit id e now.moment
    { tally := p.tally.addRecord.count answer.1, intake := answer.2 }

end Finding

/-- What a line turns out to be. -/
def finding (date : Instant) (line : List UInt8) : Finding :=
  match text? line with
  | none => .malformed
  | some text =>
    if Text.trimmed text = "" then .blank
    else
      match Audit.Record.read (Text.trimmed text) with
      | .error _ => .malformed
      | .ok r =>
        match violation? date sourceName r with
        | some (id, e) => .violation id e
        | none => .clean

/-- Bytes that are no text. -/
def isInvalid (line : List UInt8) : Bool := (text? line).isNone

/-- A text with more in it than blanks. -/
def isFilled (line : List UInt8) : Bool := (text? line).any fun text => Text.trimmed text ≠ ""

/-- A text with more in it than blanks that is no record. -/
def isUnreadable (line : List UInt8) : Bool :=
  (text? line).any fun text => Text.trimmed text ≠ "" && (Audit.Record.read (Text.trimmed text)).toOption.isNone

/-- A record that is looked at is submitted when it is a violation with an identifier. -/
theorem submitRecord_eq (now : Clock) (source : String) (p : Pass) (r : Audit.Record) :
    p.submitRecord now source r =
      match violation? now.date source r with
      | some (id, e) =>
        { tally := p.tally.count (p.intake.submit id e now.moment).1, intake := (p.intake.submit id e now.moment).2 }
      | none => p := by
  unfold Pass.submitRecord violation?
  cases Detection.audit? r with
  | none => rfl
  | some c => by_cases hid : r.auditId = "" <;> simp [hid]

theorem scanLine_eq (now : Clock) (p : Pass) (line : List UInt8) :
    scanLine now p line = (finding now.date line).settle now p := by
  unfold scanLine finding
  cases text? line with
  | none => rfl
  | some text =>
    by_cases hblank : Text.trimmed text = ""
    · simp [scanText, hblank, Finding.settle]
    · simp only [scanText, hblank, ↓reduceIte]
      cases Audit.Record.read (Text.trimmed text) with
      | error _ => rfl
      | ok r =>
        dsimp only
        rw [submitRecord_eq]
        cases violation? now.date sourceName r <;> rfl

theorem violation?_eq_some_iff {date : Instant} {source : String} {r : Audit.Record} {call : String × Event} :
    violation? date source r = some call ↔
      ∃ c, Detection.audit? r = some c ∧ r.auditId ≠ "" ∧ call = (r.auditId, .ofAudit date r c source) := by
  unfold violation?
  cases Detection.audit? r with
  | none => simp
  | some c => by_cases hid : r.auditId = "" <;> simp [hid, eq_comm]

theorem read_empty : (Audit.Record.read "").toOption = none := by decide

/-- Blank texts need not be told apart: an empty one is no record. -/
theorem call?_finding (date : Instant) (line : List UInt8) :
    (finding date line).call? = (text? line).bind fun text =>
      (Audit.Record.read (Text.trimmed text)).toOption.bind (violation? date sourceName) := by
  unfold finding
  cases text? line with
  | none => rfl
  | some text =>
    by_cases hblank : Text.trimmed text = ""
    · simp [hblank, read_empty, Finding.call?]
    · simp only [hblank, ↓reduceIte, Option.bind_some]
      cases Audit.Record.read (Text.trimmed text) with
      | error _ => rfl
      | ok r =>
        dsimp only [Except.toOption, Option.bind_some]
        cases violation? date sourceName r <;> rfl

/-- What is submitted of a line: the event of the record that its text is without the blanks around it,
when that is a violation with an identifier. -/
theorem call?_finding_eq_some_iff {date : Instant} {line : List UInt8} {call : String × Event} :
    (finding date line).call? = some call ↔ ∃ text r c, text? line = some text ∧
      Audit.Record.read (Text.trimmed text) = .ok r ∧ Detection.audit? r = some c ∧ r.auditId ≠ "" ∧
      call = (r.auditId, .ofAudit date r c sourceName) := by
  simp only [call?_finding, Option.bind_eq_some_iff, toOption_eq_some_iff, violation?_eq_some_iff]
  constructor
  · rintro ⟨text, htext, r, hread, c, hcategory, hid, hcall⟩
    exact ⟨text, r, c, htext, hread, hcategory, hid, hcall⟩
  · rintro ⟨text, r, c, htext, hread, hcategory, hid, hcall⟩
    exact ⟨text, htext, r, hread, c, hcategory, hid, hcall⟩

/-! ### Counting lines -/

/-- What counts as a record is no text or is filled, and what counts as malformed is no text or cannot
be read. -/
theorem finding_counts (date : Instant) (line : List UInt8) :
    (finding date line).isRecord = (isInvalid line || isFilled line) ∧
      (finding date line).isMalformed = (isInvalid line || isUnreadable line) := by
  unfold finding isInvalid isFilled isUnreadable
  cases text? line with
  | none => exact ⟨rfl, rfl⟩
  | some text =>
    by_cases hblank : Text.trimmed text = ""
    · simp [hblank, Finding.isRecord, Finding.isMalformed]
    · simp only [hblank, ↓reduceIte]
      cases hread : Audit.Record.read (Text.trimmed text) with
      | error _ => simp [hblank, hread, Finding.isRecord, Finding.isMalformed, Except.toOption]
      | ok r =>
        dsimp only
        cases violation? date sourceName r <;>
          simp [hblank, hread, Finding.isRecord, Finding.isMalformed, Except.toOption]

theorem countP_isRecord (date : Instant) (segments : List (List UInt8)) :
    (segments.map (finding date)).countP Finding.isRecord = segments.countP isInvalid + segments.countP isFilled := by
  rw [List.countP_map, ← countP_or]
  · exact List.countP_congr fun line _ => by simp [(finding_counts date line).1]
  · intro line hinvalid
    simp_all [isInvalid, isFilled]

theorem countP_isMalformed (date : Instant) (segments : List (List UInt8)) :
    (segments.map (finding date)).countP Finding.isMalformed =
      segments.countP isInvalid + segments.countP isUnreadable := by
  rw [List.countP_map, ← countP_or]
  · exact List.countP_congr fun line _ => by simp [(finding_counts date line).2]
  · intro line hinvalid
    simp_all [isInvalid, isUnreadable]

/-! ### Passes -/

/-- The counts of findings whose submissions came to these outcomes. -/
def tallyOf (found : List Finding) (outcomes : List Submission) : Tally :=
  { Tally.ofOutcomes outcomes with
    records := found.countP Finding.isRecord
    malformed := found.countP Finding.isMalformed }

theorem tallyOf_append (found later : List Finding) (outcomes outcomes' : List Submission) :
    tallyOf (found ++ later) (outcomes ++ outcomes') = tallyOf found outcomes + tallyOf later outcomes' := by
  simp only [tallyOf, Tally.ofOutcomes, List.countP_append, List.count_append, List.length_append, HAdd.hAdd, Add.add,
    Tally.add, Tally.mk.injEq, true_and]
  exact Nat.add_add_add_comm ..

theorem settle_eq (now : Clock) (p : Pass) (f : Finding) :
    let submitted := p.intake.submitAll now.moment f.call?.toList
    f.settle now p = { tally := p.tally + tallyOf [f] submitted.1, intake := submitted.2 } := by
  cases f with
  | blank => rfl
  | malformed => rfl
  | clean => rfl
  | violation id e =>
    simp only [Finding.settle, Finding.call?, Option.toList, Intake.submitAll]
    cases (p.intake.submit id e now.moment).1 <;> rfl

theorem foldl_settle (now : Clock) (found : List Finding) (p : Pass) :
    let submitted := p.intake.submitAll now.moment (found.filterMap Finding.call?)
    found.foldl (Finding.settle now) p = { tally := p.tally + tallyOf found submitted.1, intake := submitted.2 } := by
  induction found generalizing p with
  | nil => rfl
  | cons f rest ih =>
    have hcalls : (f :: rest).filterMap Finding.call? = f.call?.toList ++ rest.filterMap Finding.call? := by
      cases f <;> rfl
    dsimp only at ih ⊢
    rw [List.foldl_cons, settle_eq, ih, hcalls, Intake.submitAll_append, Tally.add_assoc, ← tallyOf_append]
    rfl

theorem scan_eq (now : Clock) (intake : Intake) (content : List UInt8) :
    scan now intake content =
      ((content.splitOn lineEnd).map (finding now.date)).foldl (Finding.settle now) { intake } := by
  have hempty : ∀ p : Pass, scanLine now p [] = p := by
    intro p
    have htext : text? [] = some "" := by decide
    have hblank : Text.trimmed "" = "" := by decide
    simp [scanLine, htext, scanText, hblank]
  have hline : scanLine now = fun p line => (finding now.date line).settle now p := by
    funext p line
    exact scanLine_eq now p line
  unfold scan
  rw [foldl_lines hempty, List.foldl_map, hline]

theorem scan_eq_submitAll (now : Clock) (intake : Intake) (content : List UInt8) :
    let found := (content.splitOn lineEnd).map (finding now.date)
    let submitted := intake.submitAll now.moment (found.filterMap Finding.call?)
    scan now intake content = { tally := tallyOf found submitted.1, intake := submitted.2 } := by
  intro found submitted
  rw [scan_eq, foldl_settle, Tally.zero_add]

/-- The lines of a file are its pieces between line ends. Whatever the intake holds, a pass settles what
each of them is found to be by itself, in their order. So what the intake is submitted is exactly one
event for each piece that is, without the blanks around it, the text of a record that is a violation and
has an identifier; what counts as a record or as malformed depends on the pieces alone, and each
submission counts as one of three. A pass over two texts with a line end between them does what one pass
over each does in turn, and counts what they count together. -/
theorem scan_filters_lines (now : Clock) (intake : Intake) (content : List UInt8) :
    let segments := content.splitOn lineEnd
    let calls := segments.filterMap fun line => (finding now.date line).call?
    let submitted := intake.submitAll now.moment calls
    let p := scan now intake content
    p = (segments.map (finding now.date)).foldl (Finding.settle now) { intake } ∧
      (∀ line call, (finding now.date line).call? = some call ↔ ∃ text r c, text? line = some text ∧
        Audit.Record.read (Text.trimmed text) = .ok r ∧ Detection.audit? r = some c ∧ r.auditId ≠ "" ∧
        call = (r.auditId, .ofAudit now.date r c sourceName)) ∧
      p.intake = submitted.2 ∧
      p.tally =
        { records := segments.countP isInvalid + segments.countP isFilled
          malformed := segments.countP isInvalid + segments.countP isUnreadable
          violations := calls.length
          queued := submitted.1.count .queued
          duplicates := submitted.1.count .duplicate
          dropped := submitted.1.count .dropped + submitted.1.count .closed } ∧
      p.tally.violations = p.tally.queued + p.tally.duplicates + p.tally.dropped ∧
      ∀ later, scan now intake (content ++ lineEnd :: later) =
        { tally := p.tally + (scan now p.intake later).tally, intake := (scan now p.intake later).intake } := by
  intro segments calls submitted p
  have hcalls : (segments.map (finding now.date)).filterMap Finding.call? = calls := List.filterMap_map
  have hpass : p = { tally := tallyOf (segments.map (finding now.date)) submitted.1, intake := submitted.2 } := by
    have hscan := scan_eq_submitAll now intake content
    dsimp only at hscan
    rw [hcalls] at hscan
    exact hscan
  have htally : p.tally = tallyOf (segments.map (finding now.date)) submitted.1 := congrArg Pass.tally hpass
  refine ⟨scan_eq now intake content, fun line call => call?_finding_eq_some_iff,
    congrArg Pass.intake hpass, ?_, ?_, ?_⟩
  · -- The counts of findings are those of the pieces, the counts of outcomes those of the submissions.
    rw [htally]
    simp only [tallyOf, Tally.ofOutcomes, countP_isRecord, countP_isMalformed, submitted, Intake.length_submitAll]
  · rw [htally]
    exact Tally.violations_ofOutcomes submitted.1
  · intro later
    rw [scan_eq, splitOn_append, List.map_append, List.foldl_append, ← scan_eq, foldl_settle,
      scan_eq_submitAll now p.intake]

end AuditLog

end Source

end AdmissionWatch
