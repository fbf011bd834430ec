import ApiLint.Document.Method
import ApiLint.Document.Schema

/-! Path items and what stands in them. An entry of a path item is an operation if its key names a
method; every other entry is an extension. -/

namespace ApiLint

structure MediaType where
  schema : Option Schema

structure Response where
  content : Entries MediaType

structure Operation where
  method : HttpMethod
  /-- None unless `responses` is an object. -/
  responses : Option (Entries Response)
  tags : List String
  summary : Option String
  description : Option String

/-- Operations stand under their keys as written. -/
structure PathItem where
  operations : Entries Operation
  extensions : Entries Json

/-- Path items by path. -/
abbrev Paths := Entries PathItem

def MediaType.ofJson (value : Json) : MediaType := ⟨(value.get? "schema").bind Schema.ofJson?⟩

/-- The entries of the object under `key`, each read by `read`. -/
def Json.entriesUnder? {α : Type} (value : Json) (key : String) (read : Json → α) :
    Option (Entries α) :=
  ((value.get? key).bind Json.entries?).map (List.map fun entry => (entry.1, read entry.2))

def Response.ofJson (value : Json) : Response :=
  ⟨(value.entriesUnder? "content" MediaType.ofJson).getD []⟩

namespace Operation

/-- The scalar entries of the `tags` array are tags; anything else has none. -/
def ofJson (method : HttpMethod) (value : Json) : Operation where
  method
  responses := value.entriesUnder? "responses" Response.ofJson
  tags := (((value.get? "tags").bind Json.elements?).getD []).filterMap Json.scalarText?
  summary := (value.get? "summary").bind Json.filledText?
  description := (value.get? "description").bind Json.filledText?

/-- No summary and no description. -/
def isUndocumented (operation : Operation) : Bool :=
  operation.summary.isNone && operation.description.isNone

end Operation

/-- Sorts the entries of an object by whether their keys name methods, each kind in the order of the
object. Any other value has no entries. -/
def PathItem.ofJson (value : Json) : PathItem where
  operations := entries.filterMap fun (key, entry) =>
    (HttpMethod.ofKey? key).map fun method => (key, .ofJson method entry)
  extensions := entries.filter fun (key, _) => (HttpMethod.ofKey? key).isNone
where
  entries : Entries Json := value.entries?.getD []

end ApiLint
