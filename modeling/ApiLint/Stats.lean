import ApiLint.Document.Basic
import ApiLint.Json.Text

/-! Counts of what a description contains. -/

namespace ApiLint

structure Stats where
  endpointCount : Nat
  /-- Only methods that occur, in the order of `HttpMethod.all`. -/
  perMethodCount : List (HttpMethod × Nat)
  tagCount : Nat
  schemaCount : Nat
  /-- Each code once, in the order of code points. -/
  responseCodes : List String
deriving DecidableEq, Repr

namespace Stats

/-- Puts a code into a strictly ascending list, unless it is there. -/
def insertCode (code : String) : List String → List String
  | [] => [code]
  | first :: rest =>
    if code < first then code :: first :: rest
    else if code = first then first :: rest
    else first :: insertCode code rest

def countMethod (operations : List Operation) (method : HttpMethod) : Nat :=
  operations.countP (·.method == method)

def responseCodesOf (operations : List Operation) : List String :=
  let codes := operations.flatMap fun operation => (operation.responses.getD []).map Prod.fst
  codes.foldl (fun found code => insertCode code found) []

def ofDocument (document : Document) : Stats where
  endpointCount := document.operations.length
  perMethodCount := HttpMethod.all.filterMap fun method =>
    let count := countMethod document.operations method
    if count = 0 then none else some (method, count)
  tagCount := document.tags.length
  schemaCount := document.componentSchemas.length
  responseCodes := responseCodesOf document.operations

def methodCount (stats : Stats) (method : HttpMethod) : Nat :=
  (stats.perMethodCount.lookup method).getD 0

/-- A list shows `none` where it would be empty. -/
def listText (items : List String) : String :=
  let text := ", ".intercalate items
  if text = "" then "none" else text

/-- The lines of the text form. -/
def lines (stats : Stats) : List String :=
  let methods := stats.perMethodCount.map fun (method, count) =>
    method.label ++ " " ++ toString count
  ["Stats:",
    "  Endpoints: " ++ toString stats.endpointCount,
    "  Methods: " ++ listText methods,
    "  Response codes: " ++ listText stats.responseCodes,
    "  Schemas: " ++ toString stats.schemaCount,
    "  Tags: " ++ toString stats.tagCount]

def toJson (stats : Stats) : Json :=
  let count (n : Nat) : Json := .number (.int n)
  .object [
    ("endpointCount", count stats.endpointCount),
    ("perMethodCount",
      .object (stats.perMethodCount.map fun entry => (entry.1.token, count entry.2))),
    ("tagCount", count stats.tagCount),
    ("schemaCount", count stats.schemaCount),
    ("responseCodesUsed", .array (stats.responseCodes.map Json.string))]

end Stats

/-- Ends every line with a line feed. -/
def textOfLines (lines : List String) : String := String.join (lines.map (· ++ "\n"))

def Stats.text (stats : Stats) : String := textOfLines stats.lines

end ApiLint
