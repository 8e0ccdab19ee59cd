import AdmissionWatch.Dict
import AdmissionWatch.Telemetry.Snapshot

/-!
# Health checkers

A checker looks at one component. It takes some time to answer; where all are asked one after the
other, there is a common deadline after which nobody is waited for.
-/

namespace AdmissionWatch.Health

open Time Telemetry

/-- A component that can be asked about its health. -/
structure Checker where
  name : String
  /-- How long it takes to answer. -/
  delay : Span := .zero
  /-- Why it is unhealthy, judged from the collector. -/
  check : Snapshot → Option String

/-- What a checker found: nothing, or a reason for being unhealthy. -/
abbrev Finding := Option String

namespace Checker

/-- The share of dropped events, in percent, above which the pipeline is unhealthy. -/
def maxDropPercentage : Float := 50.0

/-- How full the channel may be, in percent. -/
def maxUtilization : Float := 90.0

/-- How long the pipeline is starting up unless something else is asked for. -/
def defaultMinUptime : Span := .ofSeconds 5

/-- Why the pipeline is unhealthy. -/
def pipelineFinding (minUptime : Span) (s : Snapshot) : Finding :=
  if s.uptime < minUptime then some s!"watcher still starting up (uptime: {s.uptime.diagnostic})"
  else if 0 < s.counters.processed && maxDropPercentage < s.dropPercentage then
    some ("high event drop rate: " ++ Snapshot.fixed 2 s.dropPercentage ++ "% (" ++ toString s.counters.dropped
      ++ " dropped out of " ++ toString s.total ++ " total)")
  else if maxUtilization < s.utilization then
    some ("high channel utilization: " ++ Snapshot.fixed 2 s.utilization ++ "%")
  else none

/-- The checker of the pipeline. -/
def pipeline (minUptime : Span := defaultMinUptime) : Checker :=
  { name := "policy-watcher", check := pipelineFinding minUptime }

end Checker

/-- How long all checkers together may take. -/
def checkTimeout : Span := .ofSeconds 5

/-- What is reported of a checker that does not answer in time. -/
def timeoutReason : String := "health check timed out"

/-- Asks a checker when `elapsed` has passed since the first was asked. Also answered: what has
passed then. -/
def ask (s : Snapshot) (elapsed : Span) (c : Checker) : Finding × Span :=
  let done := elapsed.add c.delay
  if c.delay = .zero ∨ done ≤ checkTimeout then (c.check s, done)
  else (some timeoutReason, if elapsed ≤ checkTimeout then checkTimeout else elapsed)

/-- What is known, and what time has passed, when checkers have been asked one after the other. -/
def asked (s : Snapshot) (checkers : List Checker) : Dict Finding × Span :=
  checkers.foldl (fun (found : Dict Finding × Span) c =>
    let (finding, elapsed) := ask s found.2 c
    (found.1.insert c.name finding, elapsed)) ([], .zero)

/-- What checkers find that are asked one after the other; of two of one name the later counts. -/
def askAll (s : Snapshot) (checkers : List Checker) : Dict Finding := (asked s checkers).1

end AdmissionWatch.Health
