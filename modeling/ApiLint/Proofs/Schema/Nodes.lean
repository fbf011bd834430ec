import ApiLint.Proofs.Schema.Location
import Mathlib.Data.List.Flatten

/-! The schema nodes below a node in pre-order, each with its location. They are told once for all
trees with steps, and both for schemas and for the values that schemas are read from. -/

namespace ApiLint

/-- Nodes that lead to further nodes, and nowhere on without end. -/
structure Branching (α : Type) where
  children : α → List (Step × α)
  wellFounded : WellFounded fun child node => ∃ step, (step, child) ∈ children node

namespace Branching

variable {α β : Type}

/-- The node itself, and then the nodes below each child. -/
def nodes (tree : Branching α) (node : α) : List (Location × α) :=
  ([], node) :: (tree.children node).flatMap fun child =>
    (tree.nodes child.2).map fun below => (child.1 :: below.1, below.2)
termination_by tree.wellFounded.wrap node
decreasing_by exact ⟨child.1, ‹_›⟩

/-- The location leads from the first node to the last one. -/
inductive Reaches (tree : Branching α) : α → Location → α → Prop where
  | here (node) : Reaches tree node [] node
  | down {node target child location} : child ∈ tree.children node →
      Reaches tree child.2 location target → Reaches tree node (child.1 :: location) target

theorem mem_nodes_iff {tree : Branching α} {root node : α} {location : Location} :
    (location, node) ∈ tree.nodes root ↔ tree.Reaches root location node := by
  constructor
  · intro h
    induction root using nodes.induct tree generalizing location with
    | case1 root ih =>
        rw [nodes] at h
        simp only [List.mem_cons, Prod.mk.injEq, List.mem_flatMap, List.mem_map] at h
        rcases h with ⟨rfl, rfl⟩ | ⟨child, hc, below, hb, rfl, rfl⟩
        · exact .here node
        · exact .down hc (ih child hc hb)
  · intro h
    induction h with
    | here node =>
        rw [nodes]
        exact List.mem_cons_self
    | @down node target child location hc _ ih =>
        rw [nodes]
        apply List.mem_cons_of_mem
        exact List.mem_flatMap.mpr ⟨child, hc, List.mem_map.mpr ⟨(location, target), ih, rfl⟩⟩

namespace Reaches

variable {tree : Branching α} {root node target : α} {above below : Location}

theorem append (ha : tree.Reaches root above node) (hb : tree.Reaches node below target) :
    tree.Reaches root (above ++ below) target := by
  induction ha with
  | here => exact hb
  | down hc _ ih => exact .down hc (ih hb)

/-- Every node on the way to a node can be reached. -/
theorem split (h : tree.Reaches root (above ++ below) target) :
    ∃ node, tree.Reaches root above node ∧ tree.Reaches node below target := by
  induction above generalizing root with
  | nil => exact ⟨root, .here root, h⟩
  | cons step above ih =>
      cases h with
      | down hc h =>
          obtain ⟨node, ha, hb⟩ := ih h
          exact ⟨node, .down hc ha, hb⟩

end Reaches

/-- A map that carries children over carries all nodes over, each at its location. -/
theorem nodes_map (tree : Branching α) (image : Branching β) (f : α → β)
    (h : ∀ node, image.children (f node) = (tree.children node).map (Prod.map id f)) (root : α) :
    image.nodes (f root) = (tree.nodes root).map (Prod.map id f) := by
  induction root using nodes.induct tree with
  | case1 root ih =>
      rw [nodes, nodes, h, List.map_cons, List.flatMap_map, List.map_flatMap]
      refine congrArg (([], f root) :: ·) (List.flatMap_congr ?_)
      intro child hc
      change (image.nodes (f child.2)).map _ = _
      rw [ih child hc, List.map_map, List.map_map]
      rfl

end Branching

end ApiLint
