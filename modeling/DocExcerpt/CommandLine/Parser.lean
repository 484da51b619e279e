import DocExcerpt.CommandLine.Basic
/-!
# Reading the command line

The arguments are read from left to right.  A value that stands apart from its option waits, and is looked at
when the next argument is recognised or the line ends; so an unknown argument is reported before a bad value
directly in front of it.
-/
namespace DocExcerpt
namespace CommandLine

structure Reading where
  verbosity : Nat
  /-- The arguments that are settled, with their values; a switch has an empty one. -/
  settled : List (Text × Text)
  /-- An argument that waits, and its value if that has come. -/
  waiting? : Option (Argument × Option Text)
  /-- Whether the argument without a name has come. -/
  hasPositional : Bool

namespace Reading

def start (verbosity : Nat) : Reading := ⟨verbosity, [], none, false⟩

def awaitsValue (r : Reading) : Bool :=
  match r.waiting? with
  | some (_, none) => true
  | _ => false

def value? (r : Reading) (name : Text) : Option Text :=
  (r.settled.find? (fun p => p.1 == name)).map (·.2)

/-- Settles an argument.  Each is given at most once. -/
def put (r : Reading) (a : Argument) (value : Text) : Except UsageError Reading :=
  if (r.value? a.name).isSome then .error .repeatedArgument
  else do
    match a.kind? with
    | some kind => kind.check value
    | none => .ok ()
    return { r with settled := r.settled ++ [(a.name, value)] }

def settle (r : Reading) : Except UsageError Reading :=
  match r.waiting? with
  | none => .ok r
  | some (_, none) => .error .invalidValue
  | some (a, some value) => { r with waiting? := none }.put a value

end Reading

/-- Reads the letters after a single dash.  `isMain` tells whether they stand before the command. -/
def readLetters (isMain : Bool) : Reading → Text → Except UsageError Reading
  | r, [] => .ok r
  | r, 'v' :: letters => do
    let r ← r.settle
    readLetters isMain { r with verbosity := r.verbosity + 1 } letters
  | r, c :: _ => do
    if c = 'h' then
      let _ ← r.settle
      .error .help
    else if c = 'V' ∧ isMain then
      let _ ← r.settle
      .error .version
    else .error .unknownArgument

/-- Reads what follows two dashes: a name, possibly with a value after an equals sign. -/
def readLong (isMain : Bool) (options : List Argument) (r : Reading) (t : Text) : Except UsageError Reading :=
  let (name, value?) := match Text.cutFirst? '=' t with
    | some (name, value) => (name, some value)
    | none => (t, none)
  match options.find? (fun a => a.name == name) with
  | some a =>
    match a.kind?, value? with
    | some _, some value => do (← r.settle).put a value
    | some _, none => do return { ← r.settle with waiting? := some (a, none) }
    | none, some _ => .error .unneededValue
    | none, none => do (← r.settle).put a []
  | none =>
    let isHelp := name == "help".toList
    let isVersion := isMain && name == "version".toList
    let isVerbose := name == "verbose".toList
    if !(isHelp || isVersion || isVerbose) then .error .unknownArgument
    else if value?.isSome then .error .unneededValue
    else do
      let r ← r.settle
      if isHelp then .error .help
      else if isVersion then .error .version
      else return { r with verbosity := r.verbosity + 1 }

def readPositional (g : Signature) (r : Reading) (t : Text) : Except UsageError Reading :=
  if r.hasPositional then .error .unknownArgument
  else do return { ← r.settle with waiting? := some (g.positional, some t), hasPositional := true }

/-- Reads the arguments of a command.  After two dashes alone none has a name. -/
def readArguments (g : Signature) : Bool → Reading → List Text → Except UsageError Reading
  | _, r, [] => r.settle
  | true, r, t :: ts => do readArguments g true (← readPositional g r t) ts
  | false, r, t :: ts =>
    match t with
    | ['-', '-'] => readArguments g true r ts
    | '-' :: '-' :: long => do readArguments g false (← readLong false g.options r long) ts
    | '-' :: c :: letters => do readArguments g false (← readLetters false r (c :: letters)) ts
    | t =>
      if r.awaitsValue then
        readArguments g false { r with waiting? := r.waiting?.map (fun w => (w.1, some t)) } ts
      else do readArguments g false (← readPositional g r t) ts

def checkRequired (g : Signature) (r : Reading) : Except UsageError Unit :=
  if (g.positional :: g.options).all (fun a => !a.required || (r.value? a.name).isSome) then .ok ()
  else .error .missingArgument

def command? (name : Text) (r : Reading) : Option Command :=
  let value? (argument : String) : Option Text := r.value? argument.toList
  let given (argument : String) : Bool := (value? argument).isSome
  if name = "resolve".toList then do
    return .resolve (← value? "selector") (← (value? "lines").bind count?) (given "json")
  else if name = "show".toList then do
    return .show (← value? "tag") ((value? "source").map Path.mk) (given "line-numbers") (given "block")
  else if name = "scan".toList then
    some (.scan ((value? "root").map Path.mk) ((value? "format").bind ReportFormat.ofName?) (value? "template")
      ((value? "output").map Path.mk) (given "line-numbers"))
  else do
    return .completions (← (value? "shell").bind Shell.ofName?)

def readCommand (g : Signature) (verbosity : Nat) (arguments : List Text) : Except UsageError Invocation := do
  let r ← readArguments g false (Reading.start verbosity) arguments
  checkRequired g r
  match command? g.name r with
  | some c => return ⟨r.verbosity, c⟩
  | none => .error .missingArgument

/-- The end of a line that asks for help: the names of commands may follow, one inside the other. -/
def readHelp : List Text → UsageError
  | [] => .help
  | [name] => if (signature? name).isSome || name == helpName then .help else .unknownCommand
  | _ => .unknownCommand

def readMain : Bool → Reading → List Text → Except UsageError Invocation
  | _, r, [] => .error (if r.verbosity = 0 then .nothingAsked else .missingCommand)
  | true, _, t :: _ =>
    .error (if (signature? t).isSome || t == helpName then .unknownArgument else .unknownCommand)
  | false, r, t :: ts =>
    match signature? t with
    | some g => readCommand g r.verbosity ts
    | none =>
      if t = helpName then .error (readHelp ts)
      else
        match t with
        | ['-', '-'] => readMain true r ts
        | '-' :: '-' :: long => do readMain false (← readLong true [] r long) ts
        | '-' :: c :: letters => do readMain false (← readLetters true r (c :: letters)) ts
        | _ => .error .unknownCommand

/-- Reads a command line, without the name of the program. -/
def parse (arguments : List Text) : Except UsageError Invocation :=
  readMain false (Reading.start 0) arguments

end CommandLine
end DocExcerpt
