import ApiLint.Check.Schema
import ApiLint.Document.Basic

/-! The checks of path items and their operations. Each path item is checked on its own, and so is
each operation. -/

namespace ApiLint

/-- An operation should answer with one of these codes. -/
def successCodes : List String := ["200", "201"]

def checkResponse (options : Options) (context code : String) (response : Response)
    (found : Diagnostics) : Diagnostics :=
  response.content.foldl (fun found (name, media) =>
    walkSchema options media.schema
      (context ++ ".responses." ++ code ++ ".content." ++ name ++ ".schema") found) found

def checkResponses (options : Options) (label context : String)
    (responses : Option (Entries Response)) (found : Diagnostics) : Diagnostics :=
  match responses with
  | none =>
    found.push .missingResponses (context ++ ".responses") s!"Missing responses for {label}"
  | some responses =>
    let found := responses.foldl (fun found (code, response) =>
      checkResponse options context code response found) found
    if successCodes.any fun code => (responses.lookup code).isSome then found
    else
      found.push .noSuccessResponse (context ++ ".responses")
        s!"No success response (200/201) defined for {label}"

/-- Checks the operation under `key`. Messages name it by method and path. -/
def checkOperation (options : Options) (path key : String) (operation : Operation)
    (found : Diagnostics) : Diagnostics :=
  let label := operation.method.label ++ " " ++ path
  let context := "paths." ++ path ++ "." ++ key
  let found := checkResponses options label context operation.responses found
  let found :=
    if operation.isUndocumented then
      found.push .missingDocumentation context s!"Missing summary or description for {label}"
    else found
  if operation.tags.isEmpty then
    found.push .missingOperationTags (context ++ ".tags") s!"No tags defined for {label}"
  else found

def checkPathItem (options : Options) (path : String) (item : PathItem) (found : Diagnostics) :
    Diagnostics :=
  let found :=
    if path.toList.head? = some '/' then found
    else
      found.push .pathMissingSlash ("paths." ++ path) s!"Path \"{path}\" must start with \"/\""
  item.operations.foldl (fun found (key, operation) =>
    checkOperation options path key operation found) found

def checkPaths (document : Document) (options : Options) (found : Diagnostics) : Diagnostics :=
  document.pathItems.foldl (fun found (path, item) => checkPathItem options path item found) found

end ApiLint
