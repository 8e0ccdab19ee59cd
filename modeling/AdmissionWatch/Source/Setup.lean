import AdmissionWatch.LogGroup.Client
import AdmissionWatch.LogGroup.Poll
import AdmissionWatch.Settings.Resolved
import AdmissionWatch.Source.ApiServer
import AdmissionWatch.Source.PolicyEvents

/-!
# Setting up sources

Which sources the settings ask for, each with what is needed to reach it. A source that cannot be
reached, for want of credentials or outside of a cluster, is left out and keeps no other from being
watched.
-/

namespace AdmissionWatch.Source

open Time

/-- A source, as it is set up. -/
inductive Setup where
  | auditLog (path : String) (interval : Span)
  | logGroup (client : LogGroup.Client) (settings : LogGroup.Settings)
  | policyEvents (server : ApiServer) (interval : Span)
  deriving DecidableEq, Repr

namespace Setup

/-- The name of a source. -/
def name : Setup → String
  | auditLog .. => AuditLog.sourceName
  | logGroup .. => LogGroup.sourceName
  | policyEvents .. => PolicyEvents.sourceName

/-- Whether a source is watched at all. -/
def isEnabled : Setup → Bool
  | auditLog path _ => path ≠ ""
  | logGroup _ settings => settings.group ≠ ""
  | policyEvents .. => true

/-- The log group that the settings ask for. -/
def ofLogGroup (env : Environment) (settings : LogGroup.Settings) : Except Failure Setup := do
  let client ← LogGroup.Client.create settings.region settings.endpoint (← Signing.Credentials.ofEnvironment env)
  return .logGroup client settings

/-- The sources that the settings ask for and that can be reached; `cluster` is the API server of
the cluster that the process runs in. -/
def ofSettings (s : Settings) (env : Environment) (cluster : Except Failure ApiServer) : List Setup :=
  (s.auditLogPath.map fun path => auditLog path AuditLog.defaultInterval).toList
    ++ (s.logGroup.bind fun g => (ofLogGroup env g).toOption).toList
    ++ (if s.policyEvents.enabled then
        (cluster.toOption.map fun server => policyEvents server s.policyEvents.interval).toList
      else [])

end Setup

end AdmissionWatch.Source
