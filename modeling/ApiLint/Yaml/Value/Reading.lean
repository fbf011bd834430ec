import ApiLint.Yaml.Node.Grammar
import ApiLint.Yaml.Value

/-! The value of a document. An alias stands for the node that its number was last given to, as if
that node were written in its place. Collections nest to a bounded depth, and the number of aliases
followed is bounded by the size of the document. -/

namespace ApiLint.Yaml

/-- At most this many collections stand within each other. -/
def greatestNesting : Nat := 128

/-- At most this many aliases are followed for each event of the document. -/
def aliasesPerEvent : Nat := 100

/-- Where the anchors of a document stand. -/
structure Anchors where
  nodes : List (Nat × Node)

namespace Anchors

def ofNode (node : Node) : Anchors := ⟨node.anchored⟩

/-- The node that has a number; the last one that starts, if there are several. -/
def node? (anchors : Anchors) (number : Nat) : Option Node :=
  anchors.nodes.reverse.lookup number

end Anchors

/-- Reading with a number of aliases left that may still be followed. -/
abbrev Expansion := StateT Nat Option

/-- Follows an alias. -/
def follow (anchors : Anchors) (node : Node) : Expansion Node :=
  match node with
  | .aliasOf number => do
    match ← get with
    | 0 => failure
    | left + 1 =>
      set left
      match anchors.node? number with
      | some node => return node
      | none => failure
  | node => return node

/-- Runs a reading of a document with as many aliases as its size allows. -/
def Expansion.run? {α : Type} (expansion : Expansion α) (document : Node) : Option α :=
  (StateT.run expansion (aliasesPerEvent * document.size)).map Prod.fst

namespace Value

/-- Reads the entries of a mapping one by one; a key that is there already has no place. -/
def entriesOf (entry : Node × Node → Expansion (Value × Value)) :
    List (Value × Value) → List (Node × Node) → Expansion (List (Value × Value))
  | done, [] => return done.reverse
  | done, first :: rest => do
    let (key, value) ← entry first
    if hasKey done key then failure
    entriesOf entry ((key, value) :: done) rest

/-- What a node holds, its tag aside. The nodes in a collection are read by `read`, which is there
if there is room for a collection. -/
def contentOf (read : Option (Node → Expansion Value)) : Node → Expansion Value
  | .aliasOf _ => failure
  | .scalar properties style text =>
    match Scalar.ofText? properties.tag (style == .plain) text with
    | some value => return .scalar value
    | none => failure
  | .sequence _ items =>
    match read with
    | some read => .sequence <$> items.mapM read
    | none => failure
  | .mapping _ entries =>
    match read with
    | some read => .mapping <$> entriesOf (fun (key, value) => do
        return (← read key, ← read value)) [] entries
    | none => failure

/-- A private tag wraps what its node holds. -/
def wrap (properties : Properties) (value : Value) : Value :=
  match properties.tag.bind Tag.name? with
  | some name => .tagged name value
  | none => value

/-- Reads a node with room for a number of collections within each other. -/
def ofNode (anchors : Anchors) : Nat → Node → Expansion Value
  | 0, node => do
    let target ← follow anchors node
    wrap target.properties <$> contentOf none target
  | room + 1, node => do
    let target ← follow anchors node
    wrap target.properties <$> contentOf (some (ofNode anchors room)) target

/-- The value of a text; one without a document is null. -/
def parse? (text : String) : Option Value := do
  match ← documentOf? (← tokensOf? text) with
  | none => return .scalar .null
  | some document => (ofNode (.ofNode document) greatestNesting document).run? document

end Value

end ApiLint.Yaml
