import ApiLint.Proofs.Json.Reordering
import ApiLint.Proofs.Schema.Children
import ApiLint.Proofs.Schema.Walk
import Mathlib.Data.Multiset.Bind

/-! Schema nodes of values that differ only in the order of entries: nodes of the same types stand
at the same locations. -/

namespace ApiLint

namespace Json

variable {node other : Entries Json}

namespace Alike

theorem objectUnder? (h : (object node).Alike (object other)) (key : String) :
    Option.Rel (fun entries others => (object entries).Alike (object others))
      ((node.lookup key).bind Json.entries?) ((other.lookup key).bind Json.entries?) :=
  rel_bind (h.lookup key) fun _ _ hv => hv.entries?

theorem arrayUnder? (h : (object node).Alike (object other)) (key : String) :
    Option.Rel (List.Forall₂ Alike)
      ((node.lookup key).bind Json.elements?) ((other.lookup key).bind Json.elements?) :=
  rel_bind (h.lookup key) fun _ _ hv => hv.elements?

theorem typeName? (h : (object node).Alike (object other)) :
    Json.typeName? node = Json.typeName? other :=
  bind_eq_bind_of_rel (h.lookup "type") fun _ _ hv => hv.string?

/-- What does not tell alike objects apart finds the same below alike objects, step by step. -/
theorem map_schemaChildren {β : Type} {f : Entries Json → β}
    (h : (object node).Alike (object other))
    (hf : ∀ step child, SchemaStep node step child →
      ∀ value, (object child).Alike (object value) → f child = f value) :
    ((schemaChildren node).map (Prod.map id f)).Perm
      ((schemaChildren other).map (Prod.map id f)) := by
  rw [map_schemaChildren_eq, map_schemaChildren_eq]
  refine .append ?_ (.of_eq ?_)
  · rcases none_or_some_of_rel (h.objectUnder? "properties") with
      ⟨hn, ho⟩ | ⟨properties, others, hn, ho, hp⟩
    · rw [propertyChildren, propertyChildren, hn, ho]
    · rw [propertyChildren, propertyChildren, hn, ho]
      refine hp.filterMap_entries (f := fun name value =>
        value.entries?.map fun child => (Step.property name, f child)) ?_
      exact fun entry he value hv => propertyChild_eq Alike.sameShape hn hf he hv
  · exact furtherChildren_eq Alike.sameShape (h.objectUnder? "items")
      (fun kind => h.arrayUnder? kind.keyword) hf

end Alike

/-- The types at the nodes from an object on, in no order. -/
def typesBelow (node : Entries Json) : Multiset (Location × Option String) :=
  (schemaTree.nodes node).map (Prod.map id typeName?)

theorem typesBelow_eq_cons (node : Entries Json) :
    typesBelow node = ([], typeName? node) ::ₘ
      (Multiset.ofList ((schemaChildren node).map (Prod.map id typesBelow))).bind fun child =>
        child.2.map (Prod.map (child.1 :: ·) id) := by
  rw [typesBelow, Branching.nodes, List.map_cons, List.map_flatMap, ← Multiset.cons_coe,
    ← Multiset.coe_bind, ← Multiset.map_coe, Multiset.bind_map]
  refine congrArg (([], typeName? node) ::ₘ ·) (Multiset.bind_congr fun child _ => ?_)
  rw [Prod.map, typesBelow, Multiset.map_coe, List.map_map, List.map_map]
  rfl

/-- Below alike objects stand nodes of the same types at the same locations. -/
theorem Alike.typesBelow (h : (object node).Alike (object other)) :
    Json.typesBelow node = Json.typesBelow other := by
  induction node using Branching.nodes.induct schemaTree generalizing other with
  | case1 node ih =>
      rw [typesBelow_eq_cons, typesBelow_eq_cons, h.typeName?]
      refine congrArg (fun children => _ ::ₘ Multiset.bind children _) (Multiset.coe_eq_coe.mpr ?_)
      refine h.map_schemaChildren fun step child hs value hv => ?_
      exact ih (step, child) (mem_schemaChildren_iff.mpr hs) hv

theorem Alike.nodeTypes {value other : Json} (h : value.Alike other) :
    (value.nodeTypes : Multiset (Location × Option String)) = other.nodeTypes := by
  rcases none_or_some_of_rel h.entries? with ⟨hv, ho⟩ | ⟨node, others, hv, ho, hn⟩
  · rw [Json.nodeTypes, Json.nodeTypes, schemaNodes, schemaNodes, hv, ho]
  · rw [Json.nodeTypes, Json.nodeTypes, schemaNodes, schemaNodes, hv, ho]
    exact hn.typesBelow

end Json

end ApiLint
