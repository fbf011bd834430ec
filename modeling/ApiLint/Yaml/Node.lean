import ApiLint.Yaml.Tag
import ApiLint.Yaml.Token

/-! The nodes of a document as written: scalars are still text, and aliases refer to anchors by
number. -/

namespace ApiLint.Yaml

/-- What may stand in front of a node. -/
structure Properties where
  anchor : Option Nat := none
  tag : Option Tag := none
deriving Repr

inductive Node where
  | aliasOf (anchor : Nat)
  | scalar (properties : Properties) (style : Style) (text : String)
  | sequence (properties : Properties) (items : List Node)
  | mapping (properties : Properties) (entries : List (Node × Node))
deriving Repr, Inhabited

namespace Node

/-- The node that stands where nothing is written. -/
def empty (properties : Properties) : Node := .scalar properties .plain ""

def properties : Node → Properties
  | aliasOf _ => {}
  | scalar properties .. => properties
  | sequence properties _ => properties
  | mapping properties _ => properties

mutual

/-- The anchored nodes in the order in which they start. -/
def anchored : Node → List (Nat × Node)
  | aliasOf _ => []
  | scalar properties style text =>
    (properties.anchor.map fun anchor => (anchor, scalar properties style text)).toList
  | sequence properties items =>
    (properties.anchor.map fun anchor => (anchor, sequence properties items)).toList ++
      anchoredItems items
  | mapping properties entries =>
    (properties.anchor.map fun anchor => (anchor, mapping properties entries)).toList ++
      anchoredEntries entries

def anchoredItems : List Node → List (Nat × Node)
  | [] => []
  | item :: rest => item.anchored ++ anchoredItems rest

def anchoredEntries : List (Node × Node) → List (Nat × Node)
  | [] => []
  | (key, value) :: rest => key.anchored ++ value.anchored ++ anchoredEntries rest

end

mutual

/-- One for each scalar and alias, two for the brackets of each collection. -/
def size : Node → Nat
  | aliasOf _ => 1
  | scalar .. => 1
  | sequence _ items => 2 + sizeOfItems items
  | mapping _ entries => 2 + sizeOfEntries entries

def sizeOfItems : List Node → Nat
  | [] => 0
  | item :: rest => item.size + sizeOfItems rest

def sizeOfEntries : List (Node × Node) → Nat
  | [] => 0
  | (key, value) :: rest => key.size + value.size + sizeOfEntries rest

end

end Node

end ApiLint.Yaml
