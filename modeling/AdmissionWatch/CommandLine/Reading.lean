import AdmissionWatch.CommandLine.Grammar

/-!
# Reading command lines

Arguments are read in turn. The value of an option is what follows it after `=`, or what follows its
letter, or the next argument if that does not look like an option; it is read when the next option
starts or the arguments end. After `--` no argument is an option. What follows a subcommand belongs
to that. An option that is not given takes its value from the environment.
-/

namespace AdmissionWatch.CommandLine

/-- What has been read of the arguments. -/
structure Progress where
  values : Dict Value := []
  /-- The option whose value is not read yet, with the value if that was met already. -/
  pending : Option (Parameter × Option String) := none
  deriving Repr

namespace Progress

/-- Gives an option its value. -/
def give (p : Progress) (o : Parameter) (value : Option String) : Except UsageError Progress :=
  match o.kind with
  | .help => .error .help
  | .version => .error .version
  | kind =>
    if kind.takesValue ∧ value = none then .error .invalidValue
    else if (p.values.get? o.name).isSome then .error .repeated
    else do
      let v ← kind.read (value.getD "")
      return { p with values := p.values.insert o.name v }

/-- Reads the value that is not read yet. -/
def settle (p : Progress) : Except UsageError Progress :=
  match p.pending with
  | none => .ok p
  | some (o, value) => { p with pending := none }.give o value

/-- Whether the next argument is the value of an option, unless it looks like one itself. -/
def isWaiting (p : Progress) : Bool :=
  match p.pending with
  | some (_, none) => true
  | _ => false

/-- Starts an option, to which a value may be attached. -/
def start (p : Progress) (o : Parameter) (attached : Option String) : Except UsageError Progress :=
  if o.kind.takesValue then
    match attached with
    | some _ => do (← p.settle).give o attached
    | none => do return { ← p.settle with pending := some (o, none) }
  else
    match attached with
    | some _ => .error .unexpectedValue
    | none => do (← p.settle).give o none

/-- Starts the options that letters name. The first one that takes a value takes all that follows
it. -/
def startLetters (parameters : List Parameter) (p : Progress) : List Char → Except UsageError Progress
  | [] => .ok p
  | c :: rest =>
    match parameters.find? (·.letter == some c) with
    | none => .error .unknownArgument
    | some o =>
      if o.kind.takesValue then
        p.start o (if rest = [] then none else some (String.ofList ((Text.dropStart? ['='] rest).getD rest)))
      else do (← p.start o none).startLetters parameters rest

end Progress

/-- The long name in an argument, and the value attached to it. -/
def longName? (arg : String) : Option (String × Option String) :=
  (Text.dropStart? ['-', '-'] arg.toList).map fun s =>
    match Text.splitOnce ['='] s with
    | some (name, value) => (String.ofList name, some (String.ofList value))
    | none => (String.ofList s, none)

/-- The letters in an argument; a hyphen alone has none and is no option. -/
def letters? (arg : String) : Option (List Char) :=
  match arg.toList with
  | '-' :: c :: rest => some (c :: rest)
  | _ => none

/-- What the subcommand for help does with the names that follow it. -/
def helpFor (commands : List String) (names : List String) : UsageError :=
  match names with
  | [] => .help
  | [name] => if (helpCommand :: commands).contains name then .help else .unknownCommand
  | _ => .unknownCommand

/-- What is said of an argument that is no option, no value and no subcommand. -/
def stray (commands : List String) (isAfterHyphens : Bool) (arg : String) : UsageError :=
  if commands = [] ∨ (isAfterHyphens ∧ (helpCommand :: commands).contains arg) then .unknownArgument
  else .unknownCommand

/-- Reads the arguments of a command up to a subcommand. Also answered: the subcommand and what
follows it. -/
def readArguments (parameters : List Parameter) (commands : List String) (p : Progress) :
    List String → Except UsageError (Progress × Option (String × List String))
  | [] => .ok (p, none)
  | arg :: rest =>
    if !p.isWaiting && commands.contains arg then .ok (p, some (arg, rest))
    else if !p.isWaiting && commands ≠ [] && arg = helpCommand then .error (helpFor commands rest)
    else if arg = "--" then
      match rest with
      | [] => .ok (p, none)
      | next :: _ => .error (stray commands true next)
    else
      match longName? arg, letters? arg with
      | some (name, attached), _ =>
        match parameters.find? (·.name == name) with
        | some o => do readArguments parameters commands (← p.start o attached) rest
        | none => .error .unknownArgument
      | none, some letters => do readArguments parameters commands (← p.startLetters parameters letters) rest
      | none, none =>
        match p.pending with
        | some (o, none) => readArguments parameters commands { p with pending := some (o, some arg) } rest
        | _ => .error (stray commands false arg)

/-- Takes an option that was not given from the environment. -/
def takeVariable (env : Environment) (p : Progress) (o : Parameter) : Except UsageError Progress :=
  match o.fallback.bind env.get? with
  | some value => if (p.values.get? o.name).isSome then .ok p else p.give o (some value)
  | none => .ok p

/-- What is there of a command's options after its arguments have been read. -/
def complete (env : Environment) (parameters : List Parameter) (p : Progress) : Except UsageError (Dict Value) := do
  let p ← parameters.foldlM (takeVariable env) (← p.settle)
  if parameters.any fun o => o.isRequired && (p.values.get? o.name).isNone then throw .missingArgument
  return p.values

/-- The options that were given to a command, and the subcommand with those that were given to
it. -/
structure Given where
  values : Dict Value
  subcommand : Option (String × Dict Value) := none
  deriving Repr

/-- Reads a command line without the name of the program. -/
def read (c : Command) (env : Environment) (args : List String) : Except UsageError Given := do
  let parameters := c.parameters ++ [helpParameter, versionParameter]
  let (p, rest) ← readArguments parameters (c.subcommands.map Prod.fst) {} args
  let subcommand ←
    match rest with
    | none => pure none
    | some (name, args) => do
      let parameters := ((c.subcommands.lookup name).getD []) ++ [helpParameter]
      let (p, _) ← readArguments parameters [] {} args
      pure (some (name, ← complete env parameters p))
  return { values := ← complete env parameters p, subcommand }

namespace Given

/-- Whether a flag is there. -/
def flag (values : Dict Value) (name : String) : Bool := (values.get? name).isSome

/-- The text that an option was given. -/
def text? (values : Dict Value) (name : String) : Option String :=
  match values.get? name with
  | some (.text s) => some s
  | _ => none

/-- The number that an option was given. -/
def whole? (values : Dict Value) (name : String) : Option Nat :=
  match values.get? name with
  | some (.whole n) => some n
  | _ => none

/-- The span of time that an option was given. -/
def span? (values : Dict Value) (name : String) : Option Time.Span :=
  match values.get? name with
  | some (.span d) => some d
  | _ => none

end Given

end AdmissionWatch.CommandLine
