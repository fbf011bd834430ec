import ApiLint.Json.Text
import ApiLint.Yaml.Value

/-! YAML values as plain values. Tags are dropped, and keys become text: of the entries whose keys
have one text, the first gives the position and the last the value. -/

namespace ApiLint.Yaml

/-- Floats that are no numbers of a plain tree become text. -/
def FloatValue.toJson : FloatValue → Json
  | .finite value => .number (.float value)
  | value => .string value.text

/-- An integer is kept if it is a signed word or an unsigned one. Any other one is the float nearest
to it, or its text if no finite float is near. -/
def intToJson (value : Int) : Json :=
  if Number.isSigned value then .number (.int value)
  else if Number.isUnsigned value then .number (.int value)
  else
    match Binary64.ofRatio? (value < 0) value.natAbs 1 with
    | some nearest => .number (.float nearest)
    | none => .string (toString value)

def Scalar.toJson : Scalar → Json
  | null => .null
  | bool value => .bool value
  | int value => intToJson value
  | float value => value.toJson
  | string text => .string text

/-- A string is its own text, and any other value is written compactly. -/
def textOfKey : Json → String
  | .string text => text
  | value => value.compact

namespace Value

mutual

def toJson : Value → Json
  | scalar value => value.toJson
  | sequence items => .array (itemsToJson items)
  | mapping entries => .object (Entries.ofPairs (pairsToJson entries))
  | tagged _ value => value.toJson

def itemsToJson : List Value → List Json
  | [] => []
  | item :: rest => item.toJson :: itemsToJson rest

/-- The entries one by one, also those that share a text. -/
def pairsToJson : List (Value × Value) → List (String × Json)
  | [] => []
  | (key, value) :: rest => (textOfKey key.toJson, value.toJson) :: pairsToJson rest

end

/-- The text under which an entry stands. -/
def keyText (key : Value) : String := textOfKey key.toJson

theorem itemsToJson_eq_map (items : List Value) : itemsToJson items = items.map toJson := by
  induction items with
  | nil => rfl
  | cons item rest ih => simp [itemsToJson, ih]

theorem pairsToJson_eq_map (entries : List (Value × Value)) :
    pairsToJson entries = entries.map fun entry => (entry.1.keyText, entry.2.toJson) := by
  induction entries with
  | nil => rfl
  | cons entry rest ih => simp [pairsToJson, keyText, ih]

end Value

end ApiLint.Yaml
