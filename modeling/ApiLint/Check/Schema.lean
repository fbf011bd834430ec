import ApiLint.Diagnostic
import ApiLint.Document.Schema
import ApiLint.Options.Basic

/-! The check of schema types. A walk visits the nodes below a schema in pre-order, each under a
dotted path, and stops at nodes deeper than the limit with a warning. -/

namespace ApiLint

def allowedTypes : List String := ["array", "boolean", "integer", "number", "object", "string"]

/-- Whether a type is one of the allowed names. -/
def SchemaType.isAllowed : SchemaType → Bool
  | .name text => allowedTypes.contains text
  | .other _ => false

/-- Only names are checked; a `type` of another kind passes without a finding. -/
def checkType (type : SchemaType) (path : String) (found : Diagnostics) : Diagnostics :=
  match type with
  | .other _ => found
  | .name text =>
    if allowedTypes.contains text then found
    else if text = "null" then
      found.push .nullType path
        s!"Invalid type \"null\" at {path}. Use \"nullable: true\" instead."
    else
      let allowed := ", ".intercalate allowedTypes
      found.push .invalidType path s!"Invalid type \"{text}\" at {path}. Must be one of: {allowed}"

def propertyPath (path name : String) : String := path ++ ".properties." ++ name

def itemsPath (path : String) : String := path ++ ".items"

def memberPath (path : String) (kind : Composition) (index : Nat) : String :=
  path ++ "." ++ kind.keyword ++ "[" ++ toString index ++ "]"

mutual

/-- Checks the nodes from `schema` on, which stands `depth` steps below the first one. -/
def walkNode (limit depth : Nat) (path : String) : Schema → Diagnostics → Diagnostics
  | .node type properties items oneOf allOf anyOf _, found =>
    if limit < depth then
      found.push .schemaTooDeep path
        s!"Schema nesting exceeds {limit} levels at {path}. Nested schemas were not checked."
    else
      let found := match type with
        | some type => checkType type (path ++ ".type") found
        | none => found
      let found := walkProperties limit (depth + 1) path properties found
      let found := walkItem limit (depth + 1) (itemsPath path) items found
      let found := walkMembers limit (depth + 1) path .oneOf oneOf found
      let found := walkMembers limit (depth + 1) path .allOf allOf found
      walkMembers limit (depth + 1) path .anyOf anyOf found

def walkProperties (limit depth : Nat) (path : String) :
    Option (List (String × Schema)) → Diagnostics → Diagnostics
  | none, found => found
  | some entries, found => walkEntries limit depth path entries found

def walkEntries (limit depth : Nat) (path : String) :
    List (String × Schema) → Diagnostics → Diagnostics
  | [], found => found
  | (name, schema) :: rest, found =>
    walkEntries limit depth path rest (walkNode limit depth (propertyPath path name) schema found)

/-- A gap has nothing to check. -/
def walkItem (limit depth : Nat) (path : String) : Option Schema → Diagnostics → Diagnostics
  | none, found => found
  | some schema, found => walkNode limit depth path schema found

def walkMembers (limit depth : Nat) (path : String) (kind : Composition) :
    Option (List (Option Schema)) → Diagnostics → Diagnostics
  | none, found => found
  | some members, found => walkFrom limit depth path kind 0 members found

/-- Checks the members from position `index` on. -/
def walkFrom (limit depth : Nat) (path : String) (kind : Composition) (index : Nat) :
    List (Option Schema) → Diagnostics → Diagnostics
  | [], found => found
  | member :: rest, found =>
    walkFrom limit depth path kind (index + 1) rest
      (walkItem limit depth (memberPath path kind index) member found)

end

/-- Checks a schema and all nodes below it. -/
def walkSchema (options : Options) (schema : Option Schema) (path : String)
    (found : Diagnostics) : Diagnostics :=
  walkItem options.maxSchemaDepth 0 path schema found

end ApiLint
