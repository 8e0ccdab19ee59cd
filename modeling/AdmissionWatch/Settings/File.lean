import AdmissionWatch.Json.Value
import AdmissionWatch.LogGroup.Settings
import AdmissionWatch.Yaml.Record

/-!
# The settings file

A YAML document in which every setting may be left out. Spans of time are written with their units.
-/

namespace AdmissionWatch

open Time

/-- How log lines are written. -/
inductive LogFormat where
  | text
  | json
  deriving DecidableEq, Repr, Inhabited

namespace LogFormat

/-- The word for a format. -/
def label : LogFormat → String
  | text => "text"
  | json => "json"

/-- The format that a word stands for. -/
def ofLabel? (s : String) : Option LogFormat :=
  [text, json].find? fun f => f.label == s

end LogFormat

/-- Whether and how often policy events are listed. -/
structure PolicyEventSettings where
  enabled : Bool := false
  interval : Span := .ofSeconds 30
  deriving DecidableEq, Repr

/-- Where violations are reported, as far as the file says. -/
structure ReportingNames where
  hostname : Option String := none
  organization : Option String := none
  cluster : Option String := none
  deriving DecidableEq, Repr

/-- What a settings file says. -/
structure FileSettings where
  bufferSize : Nat := 1000
  httpTimeout : Span := .ofSeconds 30
  /-- Deliveries a minute. -/
  rateLimit : Nat := 60
  console : Bool := false
  logFormat : LogFormat := .text
  healthPort : Nat := 8080
  metricsInterval : Span := .ofSeconds 30
  reporting : ReportingNames := {}
  auditLogPath : Option String := none
  policyEvents : PolicyEventSettings := {}
  logGroup : Option LogGroup.Settings := none
  deriving DecidableEq, Repr

namespace FileSettings

open Yaml.Reading

/-- A span of time. -/
def span? : Yaml.Reading Span := fun targets node =>
  (text? targets node).bind fun s => (Span.read s).toOption

/-- The largest number of 16 bits. -/
def most16 : Nat := 0xFFFF

/-- The largest number of 32 bits. -/
def most32 : Nat := 0xFFFFFFFF

/-- The largest number of 64 bits. -/
def most64 : Nat := 0xFFFFFFFFFFFFFFFF

/-- Reads where violations are reported. -/
def reporting? : Yaml.Reading ReportingNames := fun targets node => do
  let found ← record? ["hostname", "organization", "cluster"] targets node
  let hostname ← fieldOr targets found 0 none (optional? text?)
  let organization ← fieldOr targets found 1 none (optional? text?)
  let cluster ← fieldOr targets found 2 none (optional? text?)
  return { hostname, organization, cluster }

/-- Reads the settings for policy events. -/
def policyEvents? : Yaml.Reading PolicyEventSettings := fun targets node => do
  let found ← record? ["enabled", "poll_interval"] targets node
  let enabled ← fieldOr targets found 0 false bool?
  let interval ← fieldOr targets found 1 ({} : PolicyEventSettings).interval span?
  return { enabled, interval }

/-- Reads the settings for a log group. -/
def logGroup? : Yaml.Reading LogGroup.Settings := fun targets node => do
  let found ← record? ["log_group", "region", "filter_pattern", "batch_size", "poll_interval", "max_memory",
    "endpoint"] targets node
  let group ← field? targets found 0 text?
  let region ← field? targets found 1 text?
  let absent : LogGroup.Settings := { group, region }
  let pattern ← fieldOr targets found 2 none (optional? text?)
  let batchSize ← fieldOr targets found 3 absent.batchSize (natural? most32)
  let interval ← fieldOr targets found 4 absent.interval span?
  let maxMemory ← fieldOr targets found 5 absent.maxMemory (natural? most64)
  let endpoint ← fieldOr targets found 6 none (optional? text?)
  return { group, region, pattern, batchSize, interval, maxMemory, endpoint }

/-- The names of the settings. -/
def names : List String :=
  ["buffer_size", "http_timeout", "rate_limit", "console", "log_format", "health_port",
   "metrics_log_interval", "insights", "audit_log_path", "kubernetes_events", "cloudwatch"]

/-- Reads all settings. -/
def ofNode? : Yaml.Reading FileSettings := fun targets node => do
  let absent : FileSettings := {}
  let found ← record? names targets node
  let bufferSize ← fieldOr targets found 0 absent.bufferSize (natural? most64)
  let httpTimeout ← fieldOr targets found 1 absent.httpTimeout span?
  let rateLimit ← fieldOr targets found 2 absent.rateLimit (natural? most32)
  let console ← fieldOr targets found 3 absent.console bool?
  let logFormat ← fieldOr targets found 4 absent.logFormat (word? LogFormat.ofLabel?)
  let healthPort ← fieldOr targets found 5 absent.healthPort (natural? most16)
  let metricsInterval ← fieldOr targets found 6 absent.metricsInterval span?
  let reporting ← fieldOr targets found 7 absent.reporting reporting?
  let auditLogPath ← fieldOr targets found 8 none (optional? text?)
  let policyEvents ← fieldOr targets found 9 absent.policyEvents policyEvents?
  let logGroup ← fieldOr targets found 10 none (optional? logGroup?)
  return { bufferSize, httpTimeout, rateLimit, console, logFormat, healthPort, metricsInterval, reporting, auditLogPath,
           policyEvents, logGroup }

/-- Reads the text of a settings file. -/
def read? (text : String) : Option FileSettings :=
  ofText? ofNode? text

/-- A setting that may be left out. -/
def optionJson : Option String → Json
  | some s => .str s
  | none => .null

/-- The settings for a log group as they are written. -/
def logGroupJson (s : LogGroup.Settings) : Json :=
  .object [("log_group", .str s.group), ("region", .str s.region), ("filter_pattern", optionJson s.pattern),
    ("batch_size", .int s.batchSize), ("poll_interval", .str s.interval.settingText), ("max_memory", .int s.maxMemory),
    ("endpoint", optionJson s.endpoint)]

/-- The settings as they are written. -/
def toJson (f : FileSettings) : Json :=
  .object [("buffer_size", .int f.bufferSize), ("http_timeout", .str f.httpTimeout.settingText),
    ("rate_limit", .int f.rateLimit), ("console", .bool f.console), ("log_format", .str f.logFormat.label),
    ("health_port", .int f.healthPort), ("metrics_log_interval", .str f.metricsInterval.settingText),
    ("insights", .object [("hostname", optionJson f.reporting.hostname),
      ("organization", optionJson f.reporting.organization), ("cluster", optionJson f.reporting.cluster)]),
    ("audit_log_path", optionJson f.auditLogPath),
    ("kubernetes_events", .object [("enabled", .bool f.policyEvents.enabled),
      ("poll_interval", .str f.policyEvents.interval.settingText)]),
    ("cloudwatch", (f.logGroup.map logGroupJson).getD .null)]

end FileSettings

end AdmissionWatch
