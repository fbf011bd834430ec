import ApiLint.Environment.Dotenv
import ApiLint.Number.Reading
import ApiLint.Options.Basic
import ApiLint.Text.Ascii

/-! The command line. Arguments are read from left to right, and the first one that is wrong or asks
for help decides. A setting that no argument gives is looked up in the environment, which a file of
assignments completes, and has a default where it is not there. -/

namespace ApiLint.CommandLine

inductive OutputFormat where
  | text
  | json
deriving DecidableEq, Repr

def OutputFormat.ofName? : String → Option OutputFormat
  | "text" => some .text
  | "json" => some .json
  | _ => none

inductive Command where
  | validate (paths : List String) (format : OutputFormat) (denyWarnings : Bool)
      (options : Options)
  | stats (path : String) (format : OutputFormat)
deriving Repr

/-- Why nothing is run: help or the version was asked for, the arguments make no command, or the
environment cannot be completed. -/
inductive Stop where
  | information
  | usage
  | environment
deriving DecidableEq, Repr

def Stop.exit : Stop → Nat
  | information => 0
  | usage => 2
  | environment => 101

inductive Subcommand where
  | validate
  | stats
deriving DecidableEq, Repr

/-- The kinds of arguments, by how they are written. -/
inductive Shape where
  | separator
  | long (name : String) (value : Option String)
  | short (letters : List Char)
  | plain
deriving DecidableEq, Repr

/-- An argument that starts with a dash is an option, but for the dash alone. A name of two dashes
may have a value behind an equals sign. -/
def Shape.of (argument : String) : Shape :=
  match argument.toList with
  | ['-', '-'] => .separator
  | '-' :: '-' :: rest =>
    let (name, rest) := rest.span (· ≠ '=')
    .long (String.ofList name) (if rest.isEmpty then none else some (String.ofList (rest.drop 1)))
  | ['-'] => .plain
  | '-' :: letters => .short letters
  | _ => .plain

/-- A number of 64 bits in decimal, which a plus sign may precede. -/
def depthOf? (text : String) : Option Nat :=
  let digits := match text.toList with
    | '+' :: rest => rest
    | digits => digits
  (naturalOf? 10 digits).filter (· < Number.wordLimit)

def switchOf? : String → Option Bool
  | "true" => some true
  | "false" => some false
  | _ => none

/-- What the arguments give. -/
structure Given where
  paths : List String := []
  format : Option OutputFormat := none
  denyWarnings : Bool := false
  maxSchemaDepth : Option Nat := none
deriving Repr

def demand {α : Type} (value : Option α) : Except Stop α :=
  match value with
  | some value => .ok value
  | none => .error .usage

namespace Given

/-- No path is empty, and counts are taken of one document only. -/
def addPath (given : Given) (subcommand : Subcommand) (path : String) : Except Stop Given :=
  if path = "" ∨ (subcommand = .stats ∧ given.paths ≠ []) then .error .usage
  else .ok { given with paths := given.paths ++ [path] }

/-- Whether an option is followed by a value. -/
def takesValue (subcommand : Subcommand) (name : String) : Bool :=
  name == "format" || (name == "max-schema-depth" && subcommand == .validate)

/-- Sets an option that takes a value, which is given at most once. -/
def setValue (given : Given) (name value : String) : Except Stop Given := do
  if name = "format" then
    if given.format.isSome then throw .usage
    return { given with format := some (← demand (OutputFormat.ofName? value)) }
  else
    if given.maxSchemaDepth.isSome then throw .usage
    return { given with maxSchemaDepth := some (← demand (depthOf? value)) }

/-- Sets an option without a value. -/
def setSwitch (given : Given) (subcommand : Subcommand) (name : String) : Except Stop Given :=
  if name = "verbose" then .ok given
  else if name = "help" then .error .information
  else if name = "deny-warnings" ∧ subcommand = .validate ∧ !given.denyWarnings then
    .ok { given with denyWarnings := true }
  else .error .usage

end Given

/-- Single letters: `v` may be repeated, and one of `asking` asks for information. -/
def readLetters (asking : List Char) : List Char → Except Stop Unit
  | [] => .ok ()
  | 'v' :: rest => readLetters asking rest
  | c :: _ => .error (if asking.contains c then .information else .usage)

/-- Reads the arguments of a subcommand; behind a separator all of them are paths. -/
def readArguments (subcommand : Subcommand) (separated : Bool) (given : Given) :
    List String → Except Stop Given
  | [] => .ok given
  | argument :: rest => do
    match if separated then .plain else Shape.of argument with
    | .plain =>
      readArguments subcommand separated (← given.addPath subcommand argument) rest
    | .separator => readArguments subcommand true given rest
    | .short letters =>
      readLetters ['h'] letters
      readArguments subcommand separated given rest
    | .long name value =>
      if Given.takesValue subcommand name then
        match value, rest with
        | some value, rest =>
          readArguments subcommand separated (← given.setValue name value) rest
        | none, value :: rest =>
          if Shape.of value = .plain then
            readArguments subcommand separated (← given.setValue name value) rest
          else .error .usage
        | none, [] => .error .usage
      else if value.isSome then .error .usage
      else readArguments subcommand separated (← given.setSwitch subcommand name) rest

/-- The value of a setting: as given, else from a variable, which has to be readable if it is
set. -/
def settle {α : Type} (environment : Environment) (variableName : String)
    (read : String → Option α) (default : α) : Option α → Except Stop α
  | some value => .ok value
  | none =>
    match environment.value? variableName with
    | some text => demand (read text)
    | none => .ok default

/-- The document of which counts are taken if no path is given. -/
def defaultPath : String := "openapi.yaml"

def complete (environment : Environment) (given : Given) : Subcommand → Except Stop Command
  | .validate => do
    if given.paths = [] then throw .usage
    let format ← settle environment "OAS_LINT_FORMAT" OutputFormat.ofName? .text given.format
    let denyWarnings ← settle environment "OAS_LINT_DENY_WARNINGS" switchOf? false
      (if given.denyWarnings then some true else none)
    let depth ← settle environment "OAS_LINT_MAX_SCHEMA_DEPTH" depthOf?
      (Options.ofDepth none).maxSchemaDepth given.maxSchemaDepth
    return .validate given.paths format denyWarnings ⟨depth⟩
  | .stats => do
    let format ← settle environment "OAS_LINT_FORMAT" OutputFormat.ofName? .text given.format
    return .stats (given.paths.head?.getD defaultPath) format

/-- Help is there for the program and for each subcommand. -/
def help : List String → Stop
  | [] | ["validate"] | ["stats"] | ["help"] => .information
  | _ => .usage

/-- The command that the arguments make in an environment. -/
def parse (environment : Environment) : List String → Except Stop Command
  | [] => .error .usage
  | "validate" :: rest => do
    complete environment (← readArguments .validate false {} rest) .validate
  | "stats" :: rest => do complete environment (← readArguments .stats false {} rest) .stats
  | "help" :: rest => .error (help rest)
  | argument :: rest =>
    match Shape.of argument with
    | .short letters => do
      readLetters ['h', 'V'] letters
      parse environment rest
    | .long "verbose" none => parse environment rest
    | .long "help" none | .long "version" none => .error .information
    | _ => .error .usage

/-- The command that the arguments make in an environment that a file of assignments completes. -/
def parseWith (environment : Environment) (assignments : ByteArray) (arguments : List String) :
    Except Stop Command :=
  match environment.load? assignments with
  | some environment => parse environment arguments
  | none => .error .environment

end ApiLint.CommandLine
