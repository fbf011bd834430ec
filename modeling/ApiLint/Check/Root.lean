import ApiLint.Diagnostic
import ApiLint.Document.Basic

/-! The fields that every description has at its root: the version of the specification, the
information object and the paths. -/

namespace ApiLint

/-- Three numbers of decimal digits with points between them, the first of which is `3`. -/
def isSupportedVersion (version : String) : Bool :=
  match version.toList with
  | '3' :: '.' :: rest =>
    match leadingDigits rest with
    | (minor, '.' :: rest) =>
      let (patch, rest) := leadingDigits rest
      !minor.isEmpty && !patch.isEmpty && rest.isEmpty
    | _ => false
  | _ => false

def checkVersion (document : Document) (found : Diagnostics) : Diagnostics :=
  match document.openapi with
  | none => found.push .missingOpenapi "openapi" "Missing required field: openapi"
  | some version =>
    if isSupportedVersion version then found
    else
      found.push .invalidOpenapiVersion "openapi"
        s!"Invalid OpenAPI version format: \"{version}\". Expected 3.x.x"

def checkInfo (document : Document) (found : Diagnostics) : Diagnostics :=
  match document.info with
  | .missing => found.push .missingInfo "info" "Missing required field: info"
  | .notObject _ => found.push .infoNotObject "info" "Field \"info\" must be an object"
  | .present info =>
    let found :=
      if info.title.isSome then found
      else found.push .missingInfoTitle "info.title" "Missing required field: info.title"
    if info.version.isSome then found
    else found.push .missingInfoVersion "info.version" "Missing required field: info.version"

def checkPathsField (document : Document) (found : Diagnostics) : Diagnostics :=
  match document.paths with
  | .missing => found.push .missingPaths "paths" "Missing required field: paths"
  | .notObject _ => found.push .pathsNotObject "paths" "Field \"paths\" must be an object"
  | .present paths =>
    if paths.isEmpty then found.push .emptyPaths "paths" "No paths defined in the API" else found

def checkRoot (document : Document) (found : Diagnostics) : Diagnostics :=
  checkPathsField document (checkInfo document (checkVersion document found))

end ApiLint
