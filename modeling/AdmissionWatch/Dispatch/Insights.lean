import AdmissionWatch.Failure
import AdmissionWatch.Http.Request
import AdmissionWatch.Json.Printer
import AdmissionWatch.Text.Blank
import AdmissionWatch.Time.Span
import AdmissionWatch.Violation.Wire

/-!
# Reporting to Insights

The service to which violations are reported. Only one status tells that a report was taken.
-/

namespace AdmissionWatch.Dispatch

open Time

/-- The version that goes along with every report. -/
def watcherVersion : String := "0.1.0"

/-- Where to report, and as whom. -/
structure Insights where
  hostname : String := "https://insights.fairwinds.com"
  organization : String := ""
  cluster : String := ""
  token : String := ""
  /-- How long an answer may take. -/
  timeout : Span := .ofSeconds 30
  deriving DecidableEq, Repr

namespace Insights

/-- Where the violations of a cluster are reported. -/
def endpoint (i : Insights) : String :=
  let base := Text.trimEndOf '/' i.hostname
  s!"{base}/v0/organizations/{i.organization}/clusters/{i.cluster}/data/watcher/policy-violations"

/-- The request that reports a violation. -/
def request (i : Insights) (v : Violation) : Http.Request where
  method := "POST"
  url := i.endpoint
  headers := [("content-type", Http.jsonType), Http.bearer i.token, ("x-fairwinds-watcher-version", watcherVersion)]
  body := v.text

/-- What comes of a report. -/
def outcome (exchange : Http.Exchange) : Except Failure Unit :=
  match exchange with
  | .error trouble => .error (.delivery ("failed to send request: " ++ trouble.message))
  | .ok answer =>
    if answer.status = 200 then .ok ()
    else .error (.delivery s!"insights API returned status {answer.status}")

end Insights

end AdmissionWatch.Dispatch
