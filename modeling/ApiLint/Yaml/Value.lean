import ApiLint.Yaml.Scalar

/-! Trees of YAML values. Keys may be any values, and a mapping holds no two equal keys. -/

namespace ApiLint.Yaml

inductive Value where
  | scalar (value : Scalar)
  | sequence (items : List Value)
  | mapping (entries : List (Value × Value))
  | tagged (name : String) (value : Value)
deriving Repr, Inhabited

namespace Value

def string (text : String) : Value := .scalar (.string text)

mutual

/-- Equality of keys. The order of a mapping's entries does not matter. -/
def same : Value → Value → Bool
  | scalar x, scalar y => x.same y
  | sequence xs, sequence ys => sameItems xs ys
  | mapping xs, mapping ys => xs.length == ys.length && sameEntries xs ys
  | tagged x v, tagged y w => x == y && same v w
  | _, _ => false

def sameItems : List Value → List Value → Bool
  | [], [] => true
  | x :: xs, y :: ys => same x y && sameItems xs ys
  | _, _ => false

/-- Every entry of the first list is found in the second one. -/
def sameEntries : List (Value × Value) → List (Value × Value) → Bool
  | [], _ => true
  | (k, v) :: xs, ys =>
    (match ys.find? fun entry => same k entry.1 with
      | some entry => same v entry.2
      | none => false) && sameEntries xs ys

end

/-- An entry with an equal key is there. -/
def hasKey (entries : List (Value × Value)) (key : Value) : Bool :=
  entries.any fun entry => entry.1.same key

end Value

end ApiLint.Yaml
