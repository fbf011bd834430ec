import ApiLint.Proofs.Json.Deletion
import ApiLint.Proofs.Schema.Children
import ApiLint.Proofs.Schema.Walk

/-! Schema nodes of values from which an entry that is not read was taken away: the same types stand
at the same locations, in the same order. -/

namespace ApiLint.Json

variable {node other : Entries Json}

namespace Trimmed

theorem objectUnder? {role below : Role} (h : Trimmed role (.object node) (.object other))
    (key : String) (hk : role.under? key = some below) :
    Option.Rel (fun entries others => Trimmed below (.object entries) (.object others))
      ((node.lookup key).bind Json.entries?) ((other.lookup key).bind Json.entries?) :=
  rel_bind (h.lookup key hk) fun _ _ hv => hv.entries?

theorem arrayUnder? {role below : Role} (h : Trimmed role (.object node) (.object other))
    (key : String) (hk : role.under? key = some below) :
    Option.Rel (List.Forall₂ (Trimmed below.element))
      ((node.lookup key).bind Json.elements?) ((other.lookup key).bind Json.elements?) :=
  rel_bind (h.lookup key hk) fun _ _ hv => hv.elements?

theorem typeName? (h : Trimmed .schema (.object node) (.object other)) :
    Json.typeName? node = Json.typeName? other :=
  bind_eq_bind_of_rel (h.lookup "type" rfl) fun _ _ hv => hv.sameShape.string?

/-- What a deletion below a node does not change, step by step, it does not change at the node. -/
theorem map_schemaChildren {β : Type} {f : Entries Json → β}
    (h : Trimmed .schema (.object node) (.object other))
    (hf : ∀ step child, SchemaStep node step child →
      ∀ value, Trimmed .schema (.object child) (.object value) → f child = f value) :
    (schemaChildren node).map (Prod.map id f) = (schemaChildren other).map (Prod.map id f) := by
  rw [map_schemaChildren_eq, map_schemaChildren_eq]
  refine congrArg₂ (· ++ ·) ?_ ?_
  · rcases none_or_some_of_rel (h.objectUnder? "properties" rfl) with
      ⟨hn, ho⟩ | ⟨properties, others, hn, ho, hp⟩
    · rw [propertyChildren, propertyChildren, hn, ho]
    · have hm := hp.map_entries (f := fun name value =>
        value.entries?.map fun child => (Step.property name, f child)) (fun _ => rfl)
        fun entry he value hv => propertyChild_eq Trimmed.sameShape hn hf he hv
      have hi := congrArg (List.filterMap id) hm
      rw [List.filterMap_map, List.filterMap_map] at hi
      rw [propertyChildren, propertyChildren, hn, ho]
      exact hi
  · have hk (kind : Composition) : Role.schema.under? kind.keyword = some .alternatives := by
      cases kind <;> rfl
    exact furtherChildren_eq Trimmed.sameShape (h.objectUnder? "items" rfl)
      (fun kind => h.arrayUnder? kind.keyword (hk kind)) hf

end Trimmed

/-- The types at the nodes from an object on. -/
def typesFrom (node : Entries Json) : List (Location × Option String) :=
  (schemaTree.nodes node).map (Prod.map id typeName?)

theorem typesFrom_eq_cons (node : Entries Json) :
    typesFrom node = ([], typeName? node) ::
      ((schemaChildren node).map (Prod.map id typesFrom)).flatMap fun child =>
        child.2.map (Prod.map (child.1 :: ·) id) := by
  rw [typesFrom, Branching.nodes, List.map_cons, List.map_flatMap, List.flatMap_map]
  refine congrArg (([], typeName? node) :: ·) (List.flatMap_congr fun child _ => ?_)
  rw [Prod.map, typesFrom, List.map_map, List.map_map]
  rfl

theorem Trimmed.typesFrom (h : Trimmed .schema (.object node) (.object other)) :
    Json.typesFrom node = Json.typesFrom other := by
  induction node using Branching.nodes.induct schemaTree generalizing other with
  | case1 node ih =>
      rw [typesFrom_eq_cons, typesFrom_eq_cons, h.typeName?]
      refine congrArg (fun children => _ :: List.flatMap _ children) ?_
      -- The children of both nodes stand at the same steps, and below each the same types.
      refine h.map_schemaChildren fun step child hs value hv => ?_
      exact ih (step, child) (mem_schemaChildren_iff.mpr hs) hv

theorem Trimmed.nodeTypes {value other : Json} (h : Trimmed .schema value other) :
    value.nodeTypes = other.nodeTypes := by
  rcases none_or_some_of_rel h.entries? with ⟨hv, ho⟩ | ⟨node, others, hv, ho, hn⟩
  · rw [Json.nodeTypes, Json.nodeTypes, schemaNodes, schemaNodes, hv, ho]
  · rw [Json.nodeTypes, Json.nodeTypes, schemaNodes, schemaNodes, hv, ho]
    exact hn.typesFrom

end ApiLint.Json
