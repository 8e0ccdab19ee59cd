import AdmissionWatch.Dispatch.Insights
import AdmissionWatch.Settings.Options

/-!
# Settings

What the watcher goes by: defaults, what the settings file says in their place, and what the command
line and the environment say in the place of both. `Settings.load` accepts only settings that make
sense.
-/

namespace AdmissionWatch

open Time Dispatch

/-- What the watcher goes by. -/
structure Settings where
  bufferSize : Nat
  rateLimit : Nat
  console : Bool
  verbose : Bool
  logFormat : LogFormat
  healthPort : Nat
  /-- How often the counters are logged; never if it is no time at all. -/
  metricsInterval : Span
  insights : Insights
  auditLogPath : Option String
  policyEvents : PolicyEventSettings
  logGroup : Option LogGroup.Settings
  deriving DecidableEq, Repr

namespace Settings

/-- The settings for a log group with what the command line says. -/
def withLogGroup (file : Option LogGroup.Settings) (o : LogGroupOptions) : LogGroup.Settings :=
  let base := file.getD { group := "", region := "" }
  { group := o.group
    region := o.region
    pattern := o.pattern.or base.pattern
    batchSize := o.batchSize.getD base.batchSize
    interval := o.interval.getD base.interval
    maxMemory := o.maxMemory.getD base.maxMemory
    endpoint := o.endpoint.or base.endpoint }

/-- What the file says with what the command line and the environment say. -/
def merge (file : FileSettings) (o : Options) : Settings :=
  let absent : Insights := {}
  let (auditLogPath, logGroup) := match o.source with
    | some (.auditLog path) => (some path, file.logGroup)
    | some (.logGroup g) => (file.auditLogPath, some (withLogGroup file.logGroup g))
    | none => (file.auditLogPath, file.logGroup)
  { bufferSize := o.bufferSize.getD file.bufferSize
    rateLimit := o.rateLimit.getD file.rateLimit
    console := o.console || file.console
    verbose := o.verbose
    logFormat := o.logFormat.getD file.logFormat
    healthPort := o.healthPort.getD file.healthPort
    metricsInterval := o.metricsInterval.getD file.metricsInterval
    insights :=
      { hostname := (o.hostname.or file.reporting.hostname).getD absent.hostname
        organization := (o.organization.or file.reporting.organization).getD ""
        cluster := (o.cluster.or file.reporting.cluster).getD ""
        token := o.token.getD ""
        timeout := (o.httpTimeout.map Span.ofSeconds).getD file.httpTimeout }
    auditLogPath := auditLogPath.filter (· ≠ "")
    policyEvents :=
      { enabled := file.policyEvents.enabled || o.policyEvents
        interval := o.policyEventInterval.getD file.policyEvents.interval }
    logGroup }

/-- What keeps settings from making sense. -/
inductive Fault where
  | noBuffer
  | noRate
  | noTimeout
  | noOrganization
  | noCluster
  | noToken
  | noPolicyEventInterval
  | noLogGroup
  | noRegion
  | badBatchSize
  | noLogGroupInterval
  | noMemory
  | noSource
  deriving DecidableEq, Repr

/-- What is reported of it. -/
def Fault.message : Fault → String
  | noBuffer => "buffer size must be greater than 0"
  | noRate => "rate limit must be greater than 0"
  | noTimeout => "HTTP timeout must be greater than 0"
  | noOrganization => "organization is required (FAIRWINDS_ORGANIZATION)"
  | noCluster => "cluster is required (FAIRWINDS_CLUSTER)"
  | noToken => "token is required unless --console is set (FAIRWINDS_TOKEN)"
  | noPolicyEventInterval => "event poll interval must be greater than 0"
  | noLogGroup => "CloudWatch log group is required"
  | noRegion => "CloudWatch region is required"
  | badBatchSize => "CloudWatch batch size must be between 1 and 10000"
  | noLogGroupInterval => "CloudWatch poll interval must be greater than 0"
  | noMemory => "CloudWatch max memory must be greater than 0"
  | noSource => "no event source configured: use \x60audit\x60, \x60cloudwatch\x60 or --kubernetes-events"

/-- The most entries that one request may ask for. -/
def maxBatchSize : Nat := 10000

/-- What may keep the settings for a log group from making sense, in the order in which it is looked
for. -/
def logGroupFaults (g : LogGroup.Settings) : List (Bool × Fault) :=
  [(Text.isBlankText g.group, .noLogGroup), (Text.isBlankText g.region, .noRegion),
   (g.batchSize == 0 || maxBatchSize < g.batchSize, .badBatchSize), (g.interval == .zero, .noLogGroupInterval),
   (g.maxMemory == 0, .noMemory)]

/-- What may keep settings from making sense before the sources are looked at. -/
def generalFaults (s : Settings) : List (Bool × Fault) :=
  [(s.bufferSize == 0, .noBuffer), (s.rateLimit == 0, .noRate), (s.insights.timeout == .zero, .noTimeout),
   (Text.isBlankText s.insights.organization, .noOrganization), (Text.isBlankText s.insights.cluster, .noCluster),
   (!s.console && Text.isBlankText s.insights.token, .noToken),
   (s.policyEvents.enabled && s.policyEvents.interval == .zero, .noPolicyEventInterval)]

/-- What may keep settings from making sense, in the order in which it is looked for. -/
def faults (s : Settings) : List (Bool × Fault) :=
  s.generalFaults ++ (s.logGroup.map logGroupFaults).getD []
    ++ [(s.auditLogPath.isNone && s.logGroup.isNone && !s.policyEvents.enabled, .noSource)]

/-- The first thing that keeps settings from making sense. -/
def fault? (s : Settings) : Option Fault :=
  ((faults s).find? (·.1)).map (·.2)

/-- The settings for some options. `readFile` stands for the reading of files; a failure is given by
its reason. -/
def load (readFile : String → Except String String) (o : Options) : Except Failure Settings := do
  let file ←
    match o.file with
    | none => pure {}
    | some path =>
      match readFile path with
      | .error reason => throw (.config s!"cannot read {path}: {reason}")
      | .ok text =>
        match FileSettings.read? text with
        | none => throw (.config s!"parse error in {path}: not as expected")
        | some file => pure file
  let s := merge file o
  match s.fault? with
  | some f => throw (.config f.message)
  | none => return s

/-- The parts of the program that write log lines. -/
def logTargets : List String :=
  ["policywatch", "policywatch_agent", "policywatch_core", "policywatch_classifiers", "policywatch_dispatch",
    "policywatch_telemetry"]

/-- Which log lines are written: those of every part of the program from some level on, and with
`verbose` those of the server. -/
def logFilter (verbose : Bool) : String :=
  let level := if verbose then "debug" else "info"
  ",".intercalate (logTargets.map (fun t => t ++ "=" ++ level) ++ if verbose then ["tower_http=debug"] else [])

end Settings

end AdmissionWatch
