import ApiLint.Proofs.Report.Tally

/-! No check depends on what was found before it. However checks follow one another, the findings of
each severity are those that each check makes on its own, one after the other, and a validation is
one such sequence of checks. -/

namespace ApiLint

/-- What may be done with the findings so far. -/
inductive Check where
  | finding (rule : Rule) (path message : String)
  | schemaType (type : SchemaType) (path : String)
  | schema (options : Options) (node : Option Schema) (path : String)
  | root (document : Document)
  | paths (document : Document) (options : Options)
  | tags (document : Document)

namespace Check

def run : Check → Diagnostics → Diagnostics
  | .finding rule path message, found => found.push rule path message
  | .schemaType type path, found => checkType type path found
  | .schema options node path, found => walkSchema options node path found
  | .root document, found => checkRoot document found
  | .paths document options, found => checkPaths document options found
  | .tags document, found => checkTags document found

/-- What a check finds on its own, in order. -/
def findings (check : Check) (severity : Severity) : List Diagnostic :=
  (check.run {}).ofSeverity severity

/-- The checks of a validation. Every component is walked for itself. -/
def ofDocument (document : Document) (options : Options) : List Check :=
  [root document] ++
    (document.componentSchemas.map fun (name, node) =>
      schema options node ("components.schemas." ++ name)) ++
    [paths document options, tags document]

end Check

/-! ## One check -/

namespace Check

end Check

end ApiLint
