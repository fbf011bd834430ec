import ApiLint.Document.Paths

/-! The parts of an API description that are checked or counted. Reading them never fails: a part of
the wrong shape is absent, or kept as it is where a check tells the two apart. -/

namespace ApiLint

/-- A field that should hold an object. A null counts as missing. -/
inductive Field (α : Type) where
  | missing
  | notObject (value : Json)
  | present (value : α)

namespace Field

variable {α : Type}

def get? : Field α → Option α
  | .present value => some value
  | _ => none

/-- Reads the object under a key. -/
def ofJson (read : Json → α) : Option Json → Field α
  | none => .missing
  | some .null => .missing
  | some (.object entries) => .present (read (.object entries))
  | some value => .notObject value

end Field

/-- An empty text counts as absent. -/
structure Info where
  title : Option String
  version : Option String

structure Tag where
  name : Option String
  description : Option String

/-- Component schemas by name, with a gap where an entry is no schema node. -/
structure Components where
  schemas : Entries (Option Schema)

structure Document where
  openapi : Option String
  info : Field Info
  paths : Field Paths
  /-- None unless `components` is an object. -/
  components : Option Components
  tags : List Tag

def Info.ofJson (value : Json) : Info where
  title := (value.get? "title").bind Json.filledText?
  version := (value.get? "version").bind Json.filledText?

def Tag.ofJson (value : Json) : Tag where
  name := (value.get? "name").bind Json.scalarText?
  description := (value.get? "description").bind Json.filledText?

def Paths.ofJson (value : Json) : Paths :=
  (value.entries?.getD []).map fun entry => (entry.1, .ofJson entry.2)

def Components.ofJson (value : Json) : Components :=
  ⟨(value.entriesUnder? "schemas" Schema.ofJson?).getD []⟩

namespace Document

def ofJson (value : Json) : Document where
  openapi := (value.get? "openapi").bind Json.scalarText?
  info := .ofJson Info.ofJson (value.get? "info")
  paths := .ofJson Paths.ofJson (value.get? "paths")
  components := ((value.get? "components").filter Json.isObject).map Components.ofJson
  tags := (((value.get? "tags").bind Json.elements?).getD []).map Tag.ofJson

/-- The path items; none unless `paths` is an object. -/
def pathItems (document : Document) : Paths := document.paths.get?.getD []

/-- The entries of the component schemas, gaps included. -/
def componentSchemas (document : Document) : Entries (Option Schema) :=
  (document.components.map Components.schemas).getD []

/-- All operations, path item by path item. -/
def operations (document : Document) : List Operation :=
  document.pathItems.flatMap fun entry => entry.2.operations.map Prod.snd

end Document

end ApiLint
