import AdmissionWatch.CommandLine.Reading
import AdmissionWatch.Settings.File

/-!
# The options of the watcher

What can be given on the command line: settings, each of which is also in the settings file or the
environment, and the source to watch as a subcommand.
-/

namespace AdmissionWatch

open Time CommandLine

/-- What the subcommand for log groups is given. -/
structure LogGroupOptions where
  group : String
  region : String
  pattern : Option String := none
  batchSize : Option Nat := none
  interval : Option Span := none
  maxMemory : Option Nat := none
  endpoint : Option String := none
  deriving DecidableEq, Repr

/-- The source that is named on the command line. -/
inductive SourceOption where
  | auditLog (path : String)
  | logGroup (options : LogGroupOptions)
  deriving DecidableEq, Repr

/-- What is given on the command line or in the environment. -/
structure Options where
  /-- The path of the settings file. -/
  file : Option String := none
  bufferSize : Option Nat := none
  /-- In seconds. -/
  httpTimeout : Option Nat := none
  rateLimit : Option Nat := none
  console : Bool := false
  verbose : Bool := false
  logFormat : Option LogFormat := none
  healthPort : Option Nat := none
  metricsInterval : Option Span := none
  policyEvents : Bool := false
  policyEventInterval : Option Span := none
  hostname : Option String := none
  organization : Option String := none
  cluster : Option String := none
  token : Option String := none
  source : Option SourceOption := none
  deriving DecidableEq, Repr

namespace Options

open FileSettings (most16 most32 most64)

/-- The options of the subcommand for audit logs. -/
def auditLogParameters : List Parameter :=
  [{ name := "log-path", kind := .path, isRequired := true, purpose := "Path to the audit log" }]

/-- The options of the subcommand for log groups. -/
def logGroupParameters : List Parameter :=
  [{ name := "log-group", kind := .text, isRequired := true,
     purpose := "Log group name, e.g. /aws/eks/<cluster>/cluster" },
   { name := "region", kind := .text, fallback := some "AWS_REGION", isRequired := true, purpose := "AWS region" },
   { name := "filter-pattern", kind := .text, purpose := "CloudWatch filter pattern" },
   { name := "batch-size", kind := .whole most32, purpose := "Maximum events fetched per request" },
   { name := "poll-interval", kind := .span, purpose := "Poll interval" },
   { name := "max-memory", kind := .whole most64, purpose := "Cap on log message bytes retained per poll, in MiB" },
   { name := "endpoint", kind := .text, fallback := some "AWS_ENDPOINT_URL_CLOUDWATCH_LOGS",
     purpose := "Override the CloudWatch Logs endpoint" }]

/-- The options that stand before a subcommand. -/
def parameters : List Parameter :=
  [{ name := "config", letter := some 'c', kind := .path, fallback := some "POLICYWATCH_CONFIG",
     purpose := "YAML configuration file" },
   { name := "buffer-size", kind := .whole most64, purpose := "Event channel capacity" },
   { name := "http-timeout", kind := .whole most64, purpose := "Insights API request timeout in seconds" },
   { name := "rate-limit", kind := .whole most32, purpose := "Deliveries per minute per violation category" },
   { name := "console", kind := .flag, purpose := "Print violations to stdout instead of calling the Insights API" },
   { name := "verbose", letter := some 'v', kind := .flag, purpose := "Enable verbose logging" },
   { name := "log-format", kind := .oneOf ["text", "json"], purpose := "Log output format" },
   { name := "health-port", kind := .whole most16, purpose := "Port for the health and metrics server" },
   { name := "metrics-log-interval", kind := .span, purpose := "How often to log pipeline metrics (0s disables)" },
   { name := "kubernetes-events", kind := .flag,
     purpose := "Also watch Kyverno audit-mode policy events through the Kubernetes API" },
   { name := "event-poll-interval", kind := .span, purpose := "Poll interval for Kubernetes policy events" },
   { name := "hostname", kind := .text, fallback := some "FAIRWINDS_HOSTNAME", purpose := "Insights host" },
   { name := "organization", kind := .text, fallback := some "FAIRWINDS_ORGANIZATION",
     purpose := "Insights organization" },
   { name := "cluster", kind := .text, fallback := some "FAIRWINDS_CLUSTER", purpose := "Insights cluster name" },
   { name := "token", kind := .text, fallback := some "FAIRWINDS_TOKEN", purpose := "Insights API token" }]

/-- The name of the subcommand for audit logs. -/
def auditLogName : String := "audit"

/-- The name of the subcommand for log groups. -/
def logGroupName : String := "cloudwatch"

/-- The command line. -/
def command : Command where
  parameters := parameters
  subcommands := [(auditLogName, auditLogParameters), (logGroupName, logGroupParameters)]

/-- What a subcommand is given. -/
def sourceOf (name : String) (values : Dict Value) : SourceOption :=
  if name = auditLogName then .auditLog ((Given.text? values "log-path").getD "")
  else
    .logGroup
      { group := (Given.text? values "log-group").getD ""
        region := (Given.text? values "region").getD ""
        pattern := Given.text? values "filter-pattern"
        batchSize := Given.whole? values "batch-size"
        interval := Given.span? values "poll-interval"
        maxMemory := Given.whole? values "max-memory"
        endpoint := Given.text? values "endpoint" }

/-- The options that are given. -/
def ofGiven (g : Given) : Options :=
  let v := g.values
  { file := Given.text? v "config"
    bufferSize := Given.whole? v "buffer-size"
    httpTimeout := Given.whole? v "http-timeout"
    rateLimit := Given.whole? v "rate-limit"
    console := Given.flag v "console"
    verbose := Given.flag v "verbose"
    logFormat := (Given.text? v "log-format").bind LogFormat.ofLabel?
    healthPort := Given.whole? v "health-port"
    metricsInterval := Given.span? v "metrics-log-interval"
    policyEvents := Given.flag v "kubernetes-events"
    policyEventInterval := Given.span? v "event-poll-interval"
    hostname := Given.text? v "hostname"
    organization := Given.text? v "organization"
    cluster := Given.text? v "cluster"
    token := Given.text? v "token"
    source := g.subcommand.map fun (name, values) => sourceOf name values }

/-- Reads a command line without the name of the program. -/
def read (env : Environment) (args : List String) : Except UsageError Options := do
  return ofGiven (← CommandLine.read command env args)

end Options

end AdmissionWatch
