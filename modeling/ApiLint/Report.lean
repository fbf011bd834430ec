import ApiLint.Check.Paths
import ApiLint.Check.Root
import ApiLint.Check.Tags
import ApiLint.Stats

/-! The result of a validation: all findings and the counts. A description is valid if it has no
errors; warnings do not count. -/

namespace ApiLint

structure Report where
  errors : List Diagnostic
  warnings : List Diagnostic
  stats : Stats
deriving DecidableEq, Repr

def checkComponents (document : Document) (options : Options) (found : Diagnostics) :
    Diagnostics :=
  document.componentSchemas.foldl (fun found (name, schema) =>
    walkSchema options schema ("components.schemas." ++ name) found) found

/-- Runs every check. -/
def checkDocument (document : Document) (options : Options) (found : Diagnostics) : Diagnostics :=
  checkTags document (checkPaths document options
    (checkComponents document options (checkRoot document found)))

def validate (document : Document) (options : Options) : Report :=
  let found := checkDocument document options {}
  { errors := found.errors.toList
    warnings := found.warnings.toList
    stats := .ofDocument document }

def Diagnostic.toJson (finding : Diagnostic) : Json :=
  .object [("rule", .string finding.rule.name), ("message", .string finding.message),
    ("path", .string finding.path)]

namespace Report

def isValid (report : Report) : Bool := report.errors.isEmpty

def toJson (report : Report) : Json :=
  .object [("isValid", .bool report.isValid),
    ("errors", .array (report.errors.map Diagnostic.toJson)),
    ("warnings", .array (report.warnings.map Diagnostic.toJson)),
    ("stats", report.stats.toJson)]

/-- Numbered messages below a title; no findings leave no lines. -/
def sectionLines (title : String) (findings : List Diagnostic) : List String :=
  if findings.isEmpty then []
  else
    ["", title ++ " (" ++ toString findings.length ++ "):"] ++
      findings.zipIdx.map fun (finding, index) =>
        "  " ++ toString (index + 1) ++ ". " ++ finding.message

def counted (count : Nat) (noun : String) : String :=
  toString count ++ " " ++ noun ++ (if count = 1 then "" else "s")

def verdict (report : Report) : String :=
  "Result: " ++ (if report.isValid then "VALID" else "INVALID") ++ " (" ++
    counted report.errors.length "error" ++ ", " ++
    counted report.warnings.length "warning" ++ ")"

/-- The lines of the text form for a document read from `source`. -/
def lines (report : Report) (source : String) : List String :=
  ["OpenAPI validation: " ++ source] ++ sectionLines "Errors" report.errors ++
    sectionLines "Warnings" report.warnings ++ [""] ++ report.stats.lines ++
    ["", report.verdict]

def text (report : Report) (source : String) : String := textOfLines (report.lines source)

end Report

end ApiLint
