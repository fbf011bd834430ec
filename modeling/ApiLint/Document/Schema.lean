import ApiLint.Json.Basic

/-! Schema nodes: the parts of a schema that are checked or lead to further nodes. Only objects are
nodes; a list of alternatives keeps a gap where a member is none, so that positions are those of the
document. -/

namespace ApiLint

/-- The `type` of a schema, unless it is absent or null. -/
inductive SchemaType where
  | name (text : String)
  | other (value : Json)
deriving Repr

/-- The keywords that combine schemas. -/
inductive Composition where
  | oneOf
  | allOf
  | anyOf
deriving DecidableEq, Repr

namespace Composition

/-- All keywords, in the order in which their members are visited. -/
def all : List Composition := [oneOf, allOf, anyOf]

def keyword : Composition → String
  | oneOf => "oneOf"
  | allOf => "allOf"
  | anyOf => "anyOf"

end Composition

inductive Schema where
  | node (type : Option SchemaType) (properties : Option (List (String × Schema)))
      (items : Option Schema) (oneOf allOf anyOf : Option (List (Option Schema)))
      (reference : Option String)
deriving Inhabited

namespace Schema

def type : Schema → Option SchemaType
  | .node type .. => type

def properties : Schema → Option (Entries Schema)
  | .node _ properties .. => properties

def items : Schema → Option Schema
  | .node _ _ items .. => items

def members : Schema → Composition → Option (List (Option Schema))
  | .node _ _ _ oneOf _ _ _, .oneOf => oneOf
  | .node _ _ _ _ allOf _ _, .allOf => allOf
  | .node _ _ _ _ _ anyOf _, .anyOf => anyOf

def reference : Schema → Option String
  | .node _ _ _ _ _ _ reference => reference

end Schema

def SchemaType.ofJson? : Json → Option SchemaType
  | .null => none
  | .string text => some (.name text)
  | value => some (.other value)

mutual

/-- The node that a value stands for, if it is an object. -/
def Schema.ofJson? : Json → Option Schema
  | .object entries =>
    some (.node ((entries.lookup "type").bind SchemaType.ofJson?) (propertiesIn entries)
      (itemsIn entries) (membersIn .oneOf entries) (membersIn .allOf entries)
      (membersIn .anyOf entries) ((entries.lookup "$ref").bind Json.string?))
  | _ => none

/-- The nodes under `properties`, if that is an object. -/
def propertiesIn : List (String × Json) → Option (List (String × Schema))
  | [] => none
  | (key, value) :: rest => if "properties" = key then namedNodes? value else propertiesIn rest

/-- The node under `items`, if that is an object. -/
def itemsIn : List (String × Json) → Option Schema
  | [] => none
  | (key, value) :: rest => if "items" = key then Schema.ofJson? value else itemsIn rest

/-- The members under a combining keyword, if that is an array. -/
def membersIn (kind : Composition) : List (String × Json) → Option (List (Option Schema))
  | [] => none
  | (key, value) :: rest => if kind.keyword = key then listedNodes? value else membersIn kind rest

/-- The nodes in an object. -/
def namedNodes? : Json → Option (List (String × Schema))
  | .object entries => some (nodesAmong entries)
  | _ => none

/-- The members of an array. -/
def listedNodes? : Json → Option (List (Option Schema))
  | .array elements => some (nodesAt elements)
  | _ => none

/-- The entries that are nodes; all others are dropped. -/
def nodesAmong : List (String × Json) → List (String × Schema)
  | [] => []
  | (key, value) :: rest =>
    match Schema.ofJson? value with
    | some schema => (key, schema) :: nodesAmong rest
    | none => nodesAmong rest

/-- The elements that are nodes, with a gap for every other one. -/
def nodesAt : List Json → List (Option Schema)
  | [] => []
  | value :: rest => Schema.ofJson? value :: nodesAt rest

end

theorem nodesAt_eq_map (elements : List Json) : nodesAt elements = elements.map Schema.ofJson? := by
  induction elements with
  | nil => rfl
  | cons value rest ih => simp [nodesAt, ih]

theorem nodesAmong_eq_filterMap (entries : Entries Json) :
    nodesAmong entries =
      entries.filterMap fun entry => (Schema.ofJson? entry.2).map (entry.1, ·) := by
  induction entries with
  | nil => rfl
  | cons entry rest ih =>
    obtain ⟨key, value⟩ := entry
    cases h : Schema.ofJson? value <;> simp [nodesAmong, h, ih]

theorem namedNodes?_eq_map (value : Json) : namedNodes? value = value.entries?.map nodesAmong := by
  cases value <;> rfl

theorem listedNodes?_eq_map (value : Json) :
    listedNodes? value = value.elements?.map (List.map Schema.ofJson?) := by
  cases value <;> simp [listedNodes?, Json.elements?, nodesAt_eq_map]

theorem itemsIn_eq_lookup (entries : Entries Json) :
    itemsIn entries = (entries.lookup "items").bind Schema.ofJson? := by
  induction entries with
  | nil => rfl
  | cons entry rest ih => grind [itemsIn]

theorem membersIn_eq_lookup (kind : Composition) (entries : Entries Json) :
    membersIn kind entries = (entries.lookup kind.keyword).bind listedNodes? := by
  induction entries with
  | nil => rfl
  | cons entry rest ih => grind [membersIn]

theorem propertiesIn_eq_lookup (entries : Entries Json) :
    propertiesIn entries = (entries.lookup "properties").bind namedNodes? := by
  induction entries with
  | nil => rfl
  | cons entry rest ih => grind [propertiesIn]

end ApiLint
