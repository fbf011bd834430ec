import ApiLint.Json.Basic
import ApiLint.Yaml.Value.Reading

/-! Reading a document straight as a plain value. Keys are scalars and take their text as written,
nothing is merged, and a private tag has no meaning here. -/

namespace ApiLint.Yaml.Verbatim

/-- Floats that are no numbers of a plain tree are lost. -/
def ofScalar : Scalar → Json
  | .null => .null
  | .bool value => .bool value
  | .int value => .number (.int value)
  | .float (.finite value) => .number (.float value)
  | .float _ => .null
  | .string text => .string text

/-- The text of a key, whatever its tag. -/
def keyOf (anchors : Anchors) (key : Node) : Expansion String := do
  match ← follow anchors key with
  | .scalar _ _ text => return text
  | _ => failure

def ofNode (anchors : Anchors) (room : Nat) (node : Node) : Expansion Json := do
  let target ← follow anchors node
  let tag := target.properties.tag
  if (tag.bind Tag.name?).isSome then failure
  match target, room with
  | .scalar _ style text, _ =>
    match Scalar.ofText? tag (style == .plain) text with
    | some value => return ofScalar value
    | none => failure
  | .sequence _ items, room + 1 => .array <$> items.mapM (ofNode anchors room)
  | .mapping _ entries, room + 1 =>
    (.object ∘ Entries.ofPairs) <$> entries.mapM fun (key, value) => do
      return (← keyOf anchors key, ← ofNode anchors room value)
  | _, _ => failure

/-- The value of a text; one without a document is null. -/
def parse? (text : String) : Option Json := do
  match ← documentOf? (← tokensOf? text) with
  | none => return .null
  | some document => (ofNode (.ofNode document) greatestNesting document).run? document

end ApiLint.Yaml.Verbatim
