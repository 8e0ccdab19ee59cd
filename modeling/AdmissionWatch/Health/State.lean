import AdmissionWatch.Health.Checker
import AdmissionWatch.Json.Value
import AdmissionWatch.Text.Quoted
import AdmissionWatch.Time.Clock

/-!
# Health

The status of the watcher, the checkers that are asked, and the probes that are answered. Liveness
fails only while the watcher stops, readiness passes only when the status is healthy and all
checkers agree, and the detailed report always passes.
-/

namespace AdmissionWatch.Health

open Time

/-- What the watcher is doing. -/
inductive Status where
  | healthy
  | unhealthy
  | starting
  | stopping
  deriving DecidableEq, Repr, Inhabited

namespace Status

/-- The status as it is reported. -/
def label : Status → String
  | healthy => "healthy"
  | unhealthy => "unhealthy"
  | starting => "starting"
  | stopping => "stopping"

/-- The status in diagnostics. -/
def diagnostic : Status → String
  | healthy => "Healthy"
  | unhealthy => "Unhealthy"
  | starting => "Starting"
  | stopping => "Stopping"

/-- The status that is reported as `s`. -/
def ofLabel? (s : String) : Option Status :=
  [healthy, unhealthy, starting, stopping].find? fun t => t.label == s

/-- The status of a component with a finding. -/
def ofFinding (f : Finding) : Status :=
  if f.isSome then unhealthy else healthy

end Status

/-- Status, checkers and what else reports need. -/
structure State where
  status : Status := .starting
  checkers : List Checker := []
  started : Moment
  version : String

/-- The body of a report. -/
structure Report where
  status : Status
  timestamp : Instant
  uptime : Span
  version : String
  details : Dict Finding := []
  deriving Repr

/-- The answer to a probe. -/
structure Probe where
  passes : Bool
  report : Report
  deriving Repr

namespace Report

/-- The JSON form of the details. -/
def detailsJson (details : Dict Finding) : Json :=
  .obj (details.map fun (name, finding) =>
    (name, .object (("status", .str (Status.ofFinding finding).label) ::
      (match finding with
        | some reason => [("error", .str reason)]
        | none => []))))

/-- The JSON form; an empty version and empty details are left out. -/
def toJson (r : Report) : Json :=
  .object <|
    [("status", .str r.status.label), ("timestamp", .str r.timestamp.preciseText),
      ("uptime", .str r.uptime.diagnostic)]
    ++ (if r.version = "" then [] else [("version", .str r.version)])
    ++ (if r.details.isEmpty then [] else [("details", detailsJson r.details)])

end Report

namespace State

/-- Adds a checker. -/
def register (h : State) (c : Checker) : State :=
  { h with checkers := h.checkers ++ [c] }

/-- Sets the status. -/
def setStatus (h : State) (status : Status) : State := { h with status }

/-- A report now. -/
def report (h : State) (now : Clock) (status : Status) (details : Dict Finding) : Report :=
  { status, timestamp := now.date, uptime := h.started.elapsed now.moment, version := h.version, details }

/-- Whether the watcher runs at all. -/
def liveness (h : State) (now : Clock) : Probe :=
  ⟨h.status != .stopping, h.report now h.status []⟩

/-- Whether the watcher does its work. -/
def readiness (h : State) (now : Clock) (s : Telemetry.Snapshot) : Probe :=
  if h.status = .healthy then
    let details := askAll s h.checkers
    let passes := details.all fun d => d.2.isNone
    ⟨passes, h.report now (if passes then .healthy else .unhealthy) details⟩
  else ⟨false, h.report now h.status []⟩

/-- Everything there is to say. -/
def detailed (h : State) (now : Clock) (s : Telemetry.Snapshot) : Probe :=
  ⟨true, h.report now h.status (askAll s h.checkers)⟩

/-- The state in diagnostics. -/
def diagnostic (h : State) : String :=
  "HealthState \x7b status: " ++ h.status.diagnostic ++ ", checkers: " ++ toString h.checkers.length
    ++ ", version: " ++ Text.quoted h.version ++ " \x7d"

end State

end AdmissionWatch.Health
