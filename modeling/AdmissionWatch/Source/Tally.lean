import AdmissionWatch.Intake

/-!
# Tallies

What one pass over a source has met.
-/

namespace AdmissionWatch.Source

/-- Counts of one pass. -/
structure Tally where
  records : Nat := 0
  malformed : Nat := 0
  violations : Nat := 0
  queued : Nat := 0
  duplicates : Nat := 0
  dropped : Nat := 0
  deriving DecidableEq, Repr, Inhabited

namespace Tally

/-- Counts a submitted violation. -/
def count (t : Tally) (outcome : Submission) : Tally :=
  let t := { t with violations := t.violations + 1 }
  match outcome with
  | .queued => { t with queued := t.queued + 1 }
  | .duplicate => { t with duplicates := t.duplicates + 1 }
  | .dropped | .closed => { t with dropped := t.dropped + 1 }

/-- Counts a record. -/
def addRecord (t : Tally) : Tally := { t with records := t.records + 1 }

/-- Counts a record that cannot be read. -/
def addMalformed (t : Tally) : Tally := { t with malformed := t.malformed + 1 }

/-- The counts of two passes together. -/
def add (s t : Tally) : Tally where
  records := s.records + t.records
  malformed := s.malformed + t.malformed
  violations := s.violations + t.violations
  queued := s.queued + t.queued
  duplicates := s.duplicates + t.duplicates
  dropped := s.dropped + t.dropped

instance : Add Tally := ⟨add⟩

end Tally

end AdmissionWatch.Source
