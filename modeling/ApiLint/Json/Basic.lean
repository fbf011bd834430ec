import ApiLint.Number.Basic

/-! Trees of plain values. An object is a list of entries in the order of the document; putting an
entry under a key that is there keeps the first position and takes the last value. -/

namespace ApiLint

/-- Values by text keys, in order. -/
abbrev Entries (α : Type) := List (String × α)

namespace Entries

variable {α : Type}

/-- Replaces the value under `key` where it stands, or appends a new entry. -/
def put (entries : Entries α) (key : String) (value : α) : Entries α :=
  match entries with
  | [] => [(key, value)]
  | (k, v) :: rest => if k = key then (k, value) :: rest else (k, v) :: put rest key value

/-- Puts pairs one after the other. -/
def ofPairs (pairs : List (String × α)) : Entries α :=
  pairs.foldl (fun entries pair => put entries pair.1 pair.2) []

end Entries

inductive Json where
  | null
  | bool (value : Bool)
  | number (value : Number)
  | string (value : String)
  | array (elements : List Json)
  | object (entries : List (String × Json))
deriving Repr, Inhabited

namespace Json

def entries? : Json → Option (Entries Json)
  | .object entries => some entries
  | _ => none

def elements? : Json → Option (List Json)
  | .array elements => some elements
  | _ => none

def string? : Json → Option String
  | .string value => some value
  | _ => none

def isObject (value : Json) : Bool := value.entries?.isSome

/-- The member of an object under `key`; nothing else has members. -/
def get? (value : Json) (key : String) : Option Json := do (← value.entries?).lookup key

/-- The text of a string, a number or a truth value. -/
def scalarText? : Json → Option String
  | .string value => some value
  | .number value => some value.text
  | .bool value => some (if value then "true" else "false")
  | _ => none

/-- The text of a scalar, unless it is empty. -/
def filledText? (value : Json) : Option String := value.scalarText?.filter (· ≠ "")

end Json

end ApiLint
