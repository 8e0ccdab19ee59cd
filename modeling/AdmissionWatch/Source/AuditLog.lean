import AdmissionWatch.Audit.Wire
import AdmissionWatch.Event.OfAudit
import AdmissionWatch.Source.Tally
import AdmissionWatch.Text.Blank
import AdmissionWatch.Time.Clock

/-!
# Audit logs

An audit log holds one record a line. Each pass reads the whole file, line by line; blank lines do
not count, lines that are no text or no record are counted and skipped, and what was submitted
before is held back by the intake.
-/

namespace AdmissionWatch.Source

open Time

/-- What is known of a pass, and the intake it submits to. -/
structure Pass where
  tally : Tally := {}
  intake : Intake

/-- Submits the event of an audit record, if it is a violation with an identifier. -/
def Pass.submitRecord (now : Clock) (source : String) (p : Pass) (r : Audit.Record) : Pass :=
  match Detection.audit? r with
  | some c =>
    if r.auditId = "" then p
    else
      let (outcome, intake) := p.intake.submit r.auditId (.ofAudit now.date r c source) now.moment
      { tally := p.tally.count outcome, intake }
  | none => p

namespace AuditLog

/-- The name of this source. -/
def sourceName : String := "audit-log"

/-- How long it is from one pass to the next. -/
def defaultInterval : Span := .ofSeconds 5

/-- The byte that ends a line. -/
def lineEnd : UInt8 := 10

/-- Puts a byte before the lines that follow it. -/
def addByte (b : UInt8) (lines : List (List UInt8)) : List (List UInt8) :=
  if b = lineEnd then [] :: lines
  else
    match lines with
    | [] => [[b]]
    | line :: rest => (b :: line) :: rest

/-- The lines of a file: what stands before each line end, and what follows the last one if there is
anything. -/
def lines (content : List UInt8) : List (List UInt8) :=
  content.foldr addByte []

/-- The text that bytes are in UTF-8. -/
def text? (bytes : List UInt8) : Option String :=
  String.fromUTF8? ⟨bytes.toArray⟩

/-- Reads a line without the blanks around it. -/
def scanText (now : Clock) (p : Pass) (line : String) : Pass :=
  let line := Text.trimmed line
  if line = "" then p
  else
    let p := { p with tally := p.tally.addRecord }
    match Audit.Record.read line with
    | .ok r => p.submitRecord now sourceName r
    | .error _ => { p with tally := p.tally.addMalformed }

/-- Reads a line. -/
def scanLine (now : Clock) (p : Pass) (line : List UInt8) : Pass :=
  match text? line with
  | some line => scanText now p line
  | none => { p with tally := p.tally.addRecord.addMalformed }

/-- Reads a file, all of it at one reading of the clock. Where each line is to have its own, a scan is an
errand, which is told the time at each step. -/
def scan (now : Clock) (intake : Intake) (content : List UInt8) : Pass :=
  (lines content).foldl (scanLine now) { intake }

end AuditLog

end AdmissionWatch.Source
