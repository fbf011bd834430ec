import ApiLint.CommandLine.Arguments
import ApiLint.Files.Discovery
import ApiLint.Report
import ApiLint.Text.Quoted

/-! What the commands print, and the exit status. Each document is validated on its own: one that
does not load has an entry of its own kind, and nothing else changes. -/

namespace ApiLint.CommandLine

/-- The exit status, what is printed, and the error that ended the command, if one did. -/
structure Outcome where
  exit : Nat
  output : String := ""
  error : Option String := none
deriving DecidableEq, Repr

/-- A document and its report, or why it did not load. -/
structure Entry where
  source : String
  result : Except LoadError Report

namespace Entry

def ofFound (options : Options) (found : Found) : Entry :=
  ⟨found.path, (Document.ofFile found.path found.content).map (validate · options)⟩

/-- The document did not load, has errors, or has warnings where they count. -/
def isRejected (denyWarnings : Bool) (entry : Entry) : Bool :=
  match entry.result with
  | .ok report => !report.isValid || (denyWarnings && !report.warnings.isEmpty)
  | .error _ => true

def text (parsers : ParserMessages) (entry : Entry) : String :=
  match entry.result with
  | .ok report => report.text entry.source
  | .error error =>
    textOfLines ["OpenAPI validation: " ++ entry.source, "",
      "Failed to load document: " ++ error.message parsers]

def toJson (parsers : ParserMessages) (entry : Entry) : Json :=
  .object [("source", .string entry.source),
    match entry.result with
    | .ok report => ("report", report.toJson)
    | .error error => ("error", .string (error.message parsers))]

end Entry

/-- An empty line stands between the texts of two documents. -/
def render (parsers : ParserMessages) (entries : List Entry) : OutputFormat → String
  | .text => "\n".intercalate (entries.map (Entry.text parsers))
  | .json => (Json.array (entries.map (Entry.toJson parsers))).pretty ++ "\n"

def noDocuments (paths : List String) : String :=
  "Operation failed: No OpenAPI documents found in " ++ quotedList paths

def runValidate (parsers : ParserMessages) (files : Files) (paths : List String)
    (format : OutputFormat) (denyWarnings : Bool) (options : Options) : Outcome :=
  match discover files paths with
  | [] => { exit := 1, error := some (noDocuments paths) }
  | found =>
    let entries := found.map (Entry.ofFound options)
    { exit := if entries.any (Entry.isRejected denyWarnings) then 1 else 0
      output := render parsers entries format }

def runStats (parsers : ParserMessages) (files : Files) (path : String) (format : OutputFormat) :
    Outcome :=
  match Document.ofFile path ((files path).bind FileTree.read) with
  | .error error => { exit := 1, error := some (error.message parsers) }
  | .ok document =>
    let stats := Stats.ofDocument document
    match format with
    | .text => { exit := 0, output := stats.text }
    | .json => { exit := 0, output := stats.toJson.pretty ++ "\n" }

def Command.run (parsers : ParserMessages) (files : Files) : Command → Outcome
  | .validate paths format denyWarnings options =>
    runValidate parsers files paths format denyWarnings options
  | .stats path format => runStats parsers files path format

/-- The paths that a command reads. -/
def Command.paths : Command → List String
  | .validate paths .. => paths
  | .stats path _ => [path]

/-- The file whose assignments complete the environment. -/
def assignmentsPath : String := ".env"

/-- The line that tells of an error. -/
def errorLine (error : String) : String := "Error: " ++ error

end ApiLint.CommandLine
