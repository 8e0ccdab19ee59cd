import AdmissionWatch.Program
import AdmissionWatch.Watcher.Run
import Std.Time.DateTime.Timestamp

/-!
# The command line

The world that the program runs in: arguments, environment, files, clocks and the console. What the
program does is decided elsewhere. There is no network here, so that every server counts as one that
cannot be reached.
-/

namespace AdmissionWatch.Console

open Time

/-- The variables that are looked at. -/
def variableNames : List String :=
  ((Options.command.parameters ++ Options.command.subcommands.flatMap Prod.snd).filterMap (·.fallback))
    ++ ["AWS_ACCESS_KEY_ID", "AWS_SECRET_ACCESS_KEY", "AWS_SESSION_TOKEN", "KUBERNETES_SERVICE_HOST",
      "KUBERNETES_SERVICE_PORT"]

/-- The environment. -/
def environment : IO Environment :=
  variableNames.foldlM (fun env name => do
    match ← IO.getEnv name with
    | some value => return Dict.insert name value env
    | none => return env) []

/-- Why a file cannot be read. -/
def reason : IO.Error → String
  | .noFileOrDirectory .. => "No such file or directory (os error 2)"
  | .permissionDenied .. => "Permission denied (os error 13)"
  | .inappropriateType .. => "Is a directory (os error 21)"
  | e => toString e

/-- The bytes of a file, or why it cannot be read. -/
def bytesOf (path : String) : IO (Except String (List UInt8)) := do
  try
    return .ok (← IO.FS.readBinFile path).toList
  catch e =>
    return .error (reason e)

/-- The text of a file, or why it cannot be read. -/
def textOf (path : String) : IO (Except String String) := do
  match ← bytesOf path with
  | .error e => return .error e
  | .ok bytes =>
    match Source.AuditLog.text? bytes with
    | some text => return .ok text
    | none => return .error "stream did not contain valid UTF-8"

/-- Where the credentials of the process for its cluster are. -/
def serviceAccount : String := "/var/run/secrets/kubernetes.io/serviceaccount"

/-- The API server of the cluster that the process runs in. -/
def cluster (env : Environment) : IO (Except Failure Source.ApiServer) := do
  let token ← textOf (serviceAccount ++ "/token")
  let certificates ← textOf (serviceAccount ++ "/ca.crt")
  return Source.ApiServer.inCluster env token certificates

/-- The time. -/
def now : IO Now := do
  let t ← Std.Time.Timestamp.now
  let moment ← IO.monoNanosNow
  return { date := ⟨t.val.second.val, t.val.nano.val.toNat⟩, moment, timer := moment }

/-- The longest that is slept at once, in milliseconds. -/
def longestSleep : Nat := 60000

/-- Waits. -/
def rest (millis : Nat) : IO Unit :=
  IO.sleep (UInt32.ofNat (min millis longestSleep))

/-- The counters in one line. -/
def summaryLine (s : Telemetry.Snapshot) : String :=
  let (numbers, texts) := s.summary
  " ".intercalate (numbers.map (fun (name, value) => name ++ "=" ++ toString value)
    ++ texts.map fun (name, value) => name ++ "=" ++ value)

/-- The world of a watcher with those settings. -/
def world (s : Settings) : Watcher.World IO where
  hasFile path := return (← bytesOf path).toBool
  content path := return (← bytesOf path).mapError .io
  list _ := return Source.ApiServer.events (.error .notConnected)
  ask _ c := return LogGroup.Client.reply c (.error .notConnected)
  deliver v := do
    if s.console then
      IO.print v.rendered
      (← IO.getStdout).flush
      return .ok ()
    else return Dispatch.Insights.outcome (.error .notConnected)
  report snapshot := IO.eprintln (summaryLine snapshot)
  publish _ := return ()

/-- How long the program runs if nobody ends it, in milliseconds. -/
def lifetime : Nat := 1000000000000000

/-- Runs the program up to its end. -/
def runProgram (args : List String) : IO (Except Program.Exit Unit) := do
  let env ← environment
  match Program.options env args with
  | .error exit => return .error exit
  | .ok options =>
    let text ← match options.file with
      | some path => textOf path
      | none => pure (.error "")
    let cluster ← cluster env
    let t ← now
    let ready : Except Program.Exit (Settings × Watcher) := do
      let settings ← Program.settings (fun _ => text) options
      return (settings, ← Program.watcher settings env cluster t.moment)
    match ready with
    | .error exit => return .error exit
    | .ok (settings, watcher) =>
      let world := world settings
      match ← watcher.start world t with
      | .error _ => return .ok ()
      | .ok watcher =>
        let watcher ← watcher.run world now rest lifetime
        let _ ← watcher.stop world (← now)
        return .ok ()

end AdmissionWatch.Console

/-- Runs the program with its arguments. -/
def main (args : List String) : IO UInt32 := do
  match ← AdmissionWatch.Console.runProgram args with
  | .ok () => return 0
  | .error exit =>
    IO.print exit.output
    IO.eprint exit.complaint
    return UInt32.ofNat exit.code
