import AdmissionWatch.CommandLine.Help
import AdmissionWatch.Watcher.State

/-!
# The program

What the program does with its arguments: it ends at once, when there is something to show or to
complain of, or it runs a watcher for the settings that they come to.
-/

namespace AdmissionWatch.Program

open Time Dispatch CommandLine

/-- The name of the program. -/
def name : String := "policywatch"

/-- What the program is for. -/
def purpose : String := "Watches Kubernetes policy violations and reports them to Insights"

/-- How the program ends without running a watcher. -/
structure Exit where
  code : Nat
  /-- What is shown. -/
  output : String := ""
  /-- What is complained of. -/
  complaint : String := ""
  deriving DecidableEq, Repr

/-- What is complained of arguments. -/
def usageComplaint : UsageError → String
  | .unknownArgument => "unexpected argument found"
  | .invalidValue => "a value is missing or not possible"
  | .unreadableValue => "a value cannot be read"
  | .missingArgument => "a required argument was not provided"
  | .repeated => "an argument cannot be used multiple times"
  | .unknownCommand => "unrecognized subcommand"
  | .unexpectedValue => "a flag takes no value"
  | .help | .version => ""

/-- The end for arguments that are not accepted, or that ask for something to be shown. -/
def Exit.ofUsage : UsageError → Exit
  | .help => { code := 0, output := Options.command.help name purpose }
  | .version => { code := 0, output := name ++ " " ++ watcherVersion ++ "\n" }
  | e => { code := 2, complaint := "error: " ++ usageComplaint e ++ "\n\nFor more information, try '--help'.\n" }

/-- A complaint with its cause, the lines of which are indented. -/
def complaintOf (what cause : String) : String :=
  let lines := (Text.pieces '\n' cause.toList).map fun line => "    " ++ String.ofList line
  "Error: " ++ what ++ "\n\nCaused by:\n" ++ "\n".intercalate lines ++ "\n"

/-- The end for settings that are not accepted. -/
def Exit.ofSettings (f : Failure) : Exit :=
  { code := 1, complaint := complaintOf "invalid configuration" f.message }

/-- The end when no watcher can be made. -/
def Exit.ofAbort (a : Watcher.Abort) : Exit :=
  { code := 101, complaint := a.message }

/-- The options that the arguments and the environment come to. -/
def options (env : Environment) (args : List String) : Except Exit Options :=
  (Options.read env args).mapError .ofUsage

/-- The settings that the options come to. What stands for a file that cannot be read is the
reason. -/
def settings (file : String → Except String String) (o : Options) : Except Exit Settings :=
  (Settings.load file o).mapError .ofSettings

/-- What a watcher is made for. -/
def plan (s : Settings) (env : Environment) (cluster : Except Failure Source.ApiServer) : Watcher.Plan where
  bufferSize := s.bufferSize
  metricsInterval := s.metricsInterval
  sources := Source.Setup.ofSettings s env cluster

/-- The dispatcher that the settings ask for. -/
def dispatcher (s : Settings) (now : Moment) : Dispatcher Float :=
  .withSink (if s.console then Dispatcher.consoleSink else Dispatcher.reportingSink) s.rateLimit now

/-- The watcher that the settings ask for. -/
def watcher (s : Settings) (env : Environment) (cluster : Except Failure Source.ApiServer) (now : Moment) :
    Except Exit Watcher :=
  (Watcher.create (plan s env cluster) (dispatcher s now) now).mapError .ofAbort

end AdmissionWatch.Program
