import ApiLint.CommandLine.Run
import ApiLint.Text.Ascii

/-! The program: reads the files that the arguments name, runs the command on them, and prints. -/

namespace ApiLint.Program

open CommandLine

/-- The parsers do not tell where a text breaks the syntax. -/
def parserMessages : ParserMessages where
  json _ := "the text is not a JSON value"
  yaml _ := "the text is not a YAML document"

def fileError : IO.Error → FileError
  | .noFileOrDirectory .. => .notFound
  | .inappropriateType .. => .notDirectory
  | .permissionDenied .. => .denied
  | .invalidArgument .. => .nameTooLong
  | _ => .notFound

/-- Reads a directory with everything in it, or a file. -/
partial def readTree (path : String) : IO FileTree := do
  match ← (listing path).toBaseIO with
  | .ok names => return .directory (← names.toList.mapM fun name => do
      return (name, ← readTree (Path.join path name)))
  | .error _ => return .file (← IO.FS.readBinFile path)
where
  listing (path : String) : IO (Array String) := do
    return (← ((← IO.currentDir) / path).readDir).map (·.fileName)

/-- What stands at each of some paths. -/
def readFiles (paths : List String) : IO Files := do
  let read ← paths.mapM fun path => do
    match ← (readTree path).toBaseIO with
    | .ok tree => return (path, Except.ok tree)
    | .error error => return (path, Except.error (fileError error))
  return fun path => (read.lookup path).getD (.error .notFound)

/-- The words of a text that may name variables. -/
def words (text : String) : List String :=
  let names (isPart : Char → Bool) : List String :=
    ((text.toList.splitOnP fun c => !isPart c).filter (· ≠ [])).map String.ofList
  names Char.isAlphanum ++ names fun c => c.isAlphanum || c == '_' || c == '.'

/-- The variables that the program looks up, and those that the assignments name. -/
def readEnvironment (assignments : ByteArray) : IO Environment := do
  let text := (String.fromUTF8? assignments).getD ""
  let names := ["OAS_LINT_FORMAT", "OAS_LINT_DENY_WARNINGS", "OAS_LINT_MAX_SCHEMA_DEPTH"]
  (names ++ words text).filterMapM fun name => do
    return (← IO.getEnv name).map (name, ·)

def readAssignments : IO ByteArray := do
  match ← (IO.FS.readBinFile assignmentsPath).toBaseIO with
  | .ok content => return content
  | .error _ => return .empty

end ApiLint.Program

open ApiLint ApiLint.CommandLine ApiLint.Program in
def main (arguments : List String) : IO UInt32 := do
  let assignments ← readAssignments
  match parseWith (← readEnvironment assignments) assignments arguments with
  | .error stop => return stop.exit.toUInt32
  | .ok command =>
    let outcome := command.run parserMessages (← readFiles command.paths)
    IO.print outcome.output
    if let some error := outcome.error then IO.eprintln (errorLine error)
    return outcome.exit.toUInt32
