import AdmissionWatch.CommandLine.Grammar

/-!
# Help

The text that tells how a command is used: its options, and each of its subcommands with the options
of that.
-/

namespace AdmissionWatch.CommandLine

/-- A placeholder for the value of an option. -/
def Parameter.placeholder (p : Parameter) : String :=
  String.ofList (p.name.toList.map fun c => if c = '-' then '_' else c.toUpper)

/-- How an option is written. -/
def Parameter.form (p : Parameter) : String :=
  let letter := match p.letter with
    | some c => "-" ++ c.toString ++ ", "
    | none => "    "
  letter ++ "--" ++ p.name ++ (if p.kind.takesValue then " <" ++ p.placeholder ++ ">" else "")

/-- What an option is for, with the values it can have and the variable that it falls back to. -/
def Parameter.explanation (p : Parameter) : String :=
  let values := match p.kind with
    | .oneOf words => " [possible values: " ++ ", ".intercalate words ++ "]"
    | _ => ""
  let fallback := match p.fallback with
    | some name => " [env: " ++ name ++ "=]"
    | none => ""
  p.purpose ++ fallback ++ values

/-- A line for each option, the explanations one below the other. -/
def optionLines (parameters : List Parameter) : List String :=
  let width := (parameters.map fun p => p.form.length).foldl max 0
  parameters.map fun p => "  " ++ p.form ++ "".pushn ' ' (width - p.form.length) ++ "  " ++ p.explanation

/-- The help of the program called `name`. -/
def Command.help (c : Command) (name purpose : String) : String :=
  let options := "Options:" :: optionLines (c.parameters ++ [helpParameter, versionParameter])
  let subcommands := c.subcommands.flatMap fun (subcommand, parameters) =>
    ["", "Usage: " ++ name ++ " " ++ subcommand ++ " [OPTIONS]", ""] ++ optionLines (parameters ++ [helpParameter])
  String.join
    (([purpose, "", "Usage: " ++ name ++ " [OPTIONS] [COMMAND]", ""] ++ options ++ subcommands).map (· ++ "\n"))

end AdmissionWatch.CommandLine
