import AdmissionWatch.Environment
import AdmissionWatch.Text.Digits
import AdmissionWatch.Text.Search
import AdmissionWatch.Time.Span

/-!
# The grammar of command lines

A command has options, each of which is known by a long name, possibly a letter and possibly a
variable of the environment, and subcommands with options of their own.
-/

namespace AdmissionWatch.CommandLine

open Time

/-- What an option takes. -/
inductive Kind where
  /-- Nothing: it is there or not. -/
  | flag
  | text
  /-- A text that is not empty. -/
  | path
  /-- A number up to a largest one. -/
  | whole (most : Nat)
  | span
  /-- One of some words. -/
  | oneOf (words : List String)
  /-- Nothing; the help is shown instead of anything else. -/
  | help
  /-- Nothing; the version is shown instead of anything else. -/
  | version
  deriving DecidableEq, Repr

/-- Why a command line is not accepted, or what is to be shown in place of running it. -/
inductive UsageError where
  | unknownArgument
  /-- A value is missing, or it is none of those that are possible. -/
  | invalidValue
  /-- A value cannot be read. -/
  | unreadableValue
  | missingArgument
  /-- An option is given twice. -/
  | repeated
  | unknownCommand
  /-- A flag is given a value. -/
  | unexpectedValue
  | help
  | version
  deriving DecidableEq, Repr

/-- What an option was given. -/
inductive Value where
  | set
  | text (value : String)
  | whole (value : Nat)
  | span (value : Span)
  deriving DecidableEq, Repr

/-- An option of a command. -/
structure Parameter where
  /-- The long name, without hyphens. -/
  name : String
  letter : Option Char := none
  kind : Kind
  /-- The variable that is used when the option is not given. -/
  fallback : Option String := none
  isRequired : Bool := false
  /-- What the help says. -/
  purpose : String := ""
  deriving DecidableEq, Repr

/-- A command with the subcommands that may follow its options. -/
structure Command where
  parameters : List Parameter
  subcommands : List (String × List Parameter) := []

/-- A number up to a largest one, with at most a plus sign before it. A number that fits in a signed
integer of 64 bits is read as one, so that zero may have a minus sign before it. -/
def whole? (most : Nat) (s : String) : Option Nat :=
  match s.toList with
  | '-' :: digits => if most < 0x8000000000000000 then (Text.nat? digits).filter (· = 0) else none
  | cs => (Text.nat? ((Text.dropStart? ['+'] cs).getD cs)).filter (· ≤ most)

/-- Reads what an option was given. -/
def Kind.read : Kind → String → Except UsageError Value
  | text, s => .ok (.text s)
  | path, s => if s = "" then .error .invalidValue else .ok (.text s)
  | whole most, s =>
    match whole? most s with
    | some n => .ok (.whole n)
    | none => .error .unreadableValue
  | span, s =>
    match Span.read s with
    | .ok d => .ok (.span d)
    | .error _ => .error .unreadableValue
  | oneOf words, s => if words.contains s then .ok (.text s) else .error .invalidValue
  | flag, _ | help, _ | version, _ => .ok .set

/-- Whether an option takes a value. -/
def Kind.takesValue : Kind → Bool
  | flag | help | version => false
  | _ => true

/-- The option by which every command shows its help. -/
def helpParameter : Parameter := { name := "help", letter := some 'h', kind := .help, purpose := "Print help" }

/-- The option by which a command shows its version. -/
def versionParameter : Parameter :=
  { name := "version", letter := some 'V', kind := .version, purpose := "Print version" }

/-- The subcommand by which a command with subcommands shows the help. -/
def helpCommand : String := "help"

end AdmissionWatch.CommandLine
