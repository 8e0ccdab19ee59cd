import AdmissionWatch.Health.State
import AdmissionWatch.Http.Message
import AdmissionWatch.Json.Printer
import AdmissionWatch.Telemetry.Exposition

/-!
# The health server

Four pages: liveness, readiness, the detailed report and the metrics. They can be read with GET and,
without their body, with HEAD.
-/

namespace AdmissionWatch.Health

open Time

/-- A page of the server. -/
inductive Page where
  | liveness
  | readiness
  | detailed
  | metrics
  deriving DecidableEq, Repr

namespace Page

/-- The path of a page. -/
def path : Page → String
  | liveness => "/healthz"
  | readiness => "/readyz"
  | detailed => "/health"
  | metrics => "/metrics"

/-- The page at a path. -/
def ofPath? (path : String) : Option Page :=
  [liveness, readiness, detailed, metrics].find? fun p => p.path == path

end Page

/-- What the server can see. -/
structure Server where
  health : State
  metrics : Telemetry.Metrics
  /-- Whether the metrics are exposed. -/
  exposes : Bool := false

namespace Server

/-- The answer that tells of a probe. -/
def ofProbe (p : Probe) : Http.Response :=
  { status := if p.passes then 200 else 503, contentType := some "application/json", body := p.report.toJson.text }

/-- A page. -/
def page (s : Server) (now : Clock) : Page → Http.Response
  | .liveness => ofProbe (s.health.liveness now)
  | .readiness => ofProbe (s.health.readiness now (s.metrics.snapshot now.moment))
  | .detailed => ofProbe (s.health.detailed now (s.metrics.snapshot now.moment))
  | .metrics =>
    if s.exposes then
      { status := 200, contentType := some "text/plain; version=0.0.4",
        body := Telemetry.Exposition.text s.metrics.published }
    else
      { status := 404, contentType := some "text/plain; charset=utf-8", body := "metrics recorder not installed" }

/-- The answer to a request; the query and the fragment in its target do not count. -/
def respond (s : Server) (now : Clock) (method target : String) : Http.Response :=
  match Page.ofPath? (String.ofList (target.toList.takeWhile fun c => c != '?' && c != '#')) with
  | none => { status := 404 }
  | some page =>
    match method with
    | "GET" => s.page now page
    | "HEAD" => { s.page now page with body := "" }
    | _ => { status := 405 }

end Server

end AdmissionWatch.Health
