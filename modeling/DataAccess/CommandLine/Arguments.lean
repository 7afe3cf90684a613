import DataAccess.Compiler

set_option autoImplicit false

/-! # Command-line arguments

A command line names one of three commands and its settings. `Invocation.parse` reads it. A setting
is given as `--name value`, `--name=value`, `-n value`, `-nvalue` or `-n=value`, at most once; a
value that follows as an argument of its own does not start with a hyphen, unless it is the hyphen
alone. -/

namespace DataAccess.CommandLine

/-! ## Commands and settings -/

/-- What can be asked for. -/
inductive Command where
  | compile
  | check
  | sql
  deriving DecidableEq

/-- What can be set. -/
inductive Setting where
  | models
  | dialect
  | output
  | package
  | modulePath
  | model
  deriving DecidableEq

def Command.ofName? : String → Option Command
  | "compile" => some .compile
  | "check" => some .check
  | "sql" => some .sql
  | _ => none

/-- The settings a command takes. -/
def Command.settings : Command → List Setting
  | .compile => [.models, .dialect, .output, .package, .modulePath]
  | .check => [.models, .dialect]
  | .sql => [.models, .dialect, .model]

namespace Setting

/-- The long name of a setting. -/
def long : Setting → String
  | models => "models"
  | dialect => "dialect"
  | output => "output"
  | package => "package"
  | modulePath => "module"
  | model => "model"

/-- The letter of a setting. -/
def short? : Setting → Option Char
  | models => some 'd'
  | output => some 'o'
  | package => some 'p'
  | modulePath => some 'm'
  | dialect => none
  | model => none

/-- Whether the value is a path; a path is not empty. -/
def isPath : Setting → Bool
  | models => true
  | output => true
  | _ => false

end Setting

/-! ## Reading arguments -/

/-- Why a command line is not carried out. -/
inductive Refusal where
  /-- It asks for help. -/
  | help
  /-- It is no command line of this program. -/
  | usage
  deriving DecidableEq

/-- What has been read of a command's arguments. -/
structure Reading where
  verbose : Bool := false
  values : List (Setting × String) := []
  /-- The setting whose value comes next. -/
  pending : Option Setting := none
  /-- Whether the arguments were declared complete. -/
  closed : Bool := false

namespace Reading

/-- Turns on log output. -/
def setVerbose (r : Reading) : Except Refusal Reading :=
  if r.verbose then .error .usage else .ok { r with verbose := true }

/-- Takes up the value of a setting. -/
def set (r : Reading) (s : Setting) (value : String) : Except Refusal Reading :=
  if (r.values.lookup s).isSome || s.isPath && value.isEmpty then .error .usage
  else .ok { r with values := r.values ++ [(s, value)], pending := none }

/-- Reads the letters of an argument such as `-vd`. -/
def takeLetters (c : Command) (r : Reading) : List Char → Except Refusal Reading
  | [] => .ok r
  | 'h' :: _ => .error .help
  | 'v' :: cs => do
    let r ← r.setVerbose
    takeLetters c r cs
  | letter :: cs => match c.settings.find? fun s => s.short? == some letter with
    | none => .error .usage
    | some s => match cs with
      | [] => .ok { r with pending := some s }
      | '=' :: value => r.set s (String.ofList value)
      | value => r.set s (String.ofList value)

/-- Reads a long name, with the value behind an equals sign if there is one. -/
def takeLong (c : Command) (r : Reading) (cs : List Char) : Except Refusal Reading :=
  let name := String.ofList (cs.takeWhile (· != '='))
  match name, cs.dropWhile (· != '=') with
  | "help", [] => .error .help
  | "verbose", [] => r.setVerbose
  | _, rest => match c.settings.find? fun s => s.long == name with
    | none => .error .usage
    | some s => match rest with
      | [] => .ok { r with pending := some s }
      | _ :: value => r.set s (String.ofList value)

/-- Reads one argument. -/
def take (c : Command) (r : Reading) (arg : String) : Except Refusal Reading :=
  match r.closed, r.pending, arg.toList with
  | true, _, _ => .error .usage
  | false, some _, '-' :: _ :: _ => .error .usage
  | false, some s, _ => r.set s arg
  | false, none, ['-', '-'] => .ok { r with closed := true }
  | false, none, '-' :: '-' :: cs => takeLong c r cs
  | false, none, '-' :: letter :: cs => takeLetters c r (letter :: cs)
  | false, none, _ => .error .usage

/-- The value of a setting. -/
def value (r : Reading) (s : Setting) (default : String) : String :=
  (r.values.lookup s).getD default

/-- The configuration that was asked for. -/
def config (r : Reading) : Config :=
  let base : Config := {}
  { modelDir := r.value .models base.modelDir
    outDir := r.value .output base.outDir
    package := r.value .package base.package
    modulePath := r.value .modulePath base.modulePath
    dialect := r.value .dialect base.dialect }

end Reading

/-- A command with everything it needs. -/
inductive Invocation where
  | compile (config : Config)
  | check (config : Config)
  /-- List statements, of all models or of one. -/
  | sql (config : Config) (model : Option String)
  deriving DecidableEq

namespace Invocation

/-- The invocation of a command. -/
def ofReading (c : Command) (r : Reading) : Invocation :=
  match c with
  | .compile => compile r.config
  | .check => check r.config
  | .sql => sql r.config (r.values.lookup .model)

/-- Reads the arguments of a command. -/
def parseCommand (c : Command) (args : List String) : Except Refusal Invocation := do
  let r ← args.foldlM (Reading.take c) {}
  if r.pending.isSome then .error .usage else .ok (ofReading c r)

/-- Reads the letters of an argument before the command. -/
def parseLetters (verbose : Bool) : List Char → Except Refusal Bool
  | [] => .ok verbose
  | 'h' :: _ => .error .help
  | 'v' :: cs => if verbose then .error .usage else parseLetters true cs
  | _ => .error .usage

/-- What asking for help comes to. Help is there for the program, for each command, and for asking
for help. -/
def askHelp : List String → Refusal
  | [] => .help
  | [topic] => if topic = "help" ∨ (Command.ofName? topic).isSome then .help else .usage
  | _ => .usage

/-- Reads the arguments up to the command and the command. -/
def parseFrom (verbose : Bool) : List String → Except Refusal Invocation
  | [] => .error .usage
  | arg :: args =>
    if arg = "--help" then .error .help
    else if arg = "help" then .error (askHelp args)
    else if arg = "--verbose" then if verbose then .error .usage else parseFrom true args
    else match arg.toList with
      | '-' :: letter :: cs => do
        let verbose ← parseLetters verbose (letter :: cs)
        parseFrom verbose args
      | _ => match Command.ofName? arg with
        | some c => parseCommand c args
        | none => .error .usage

/-- Reads a command line. -/
def parse (args : List String) : Except Refusal Invocation := parseFrom false args

end Invocation

end DataAccess.CommandLine
