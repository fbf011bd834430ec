import ApiLint.Proofs.Json.Related
import ApiLint.Proofs.Schema.Trees

/-! The children of related objects. Those under `items` and in the lists of alternatives have their
fixed order; related objects have them at the same steps. -/

namespace ApiLint

/-- Items that are read alike are alike at their positions. -/
theorem filterMap_zipIdx_eq {α β γ : Type} {read : α → Option β} (place : Nat → β → γ)
    {items others : List α} (h : items.map read = others.map read) :
    items.zipIdx.filterMap (fun item => (read item.1).map (place item.2)) =
      others.zipIdx.filterMap fun item => (read item.1).map (place item.2) := by
  have hr (items : List α) :
      items.zipIdx.filterMap (fun item => (read item.1).map (place item.2)) =
        (items.map read).zipIdx.filterMap fun item => item.1.map (place item.2) := by
    rw [List.zipIdx_map, List.filterMap_map]
    rfl
  rw [hr, hr, h]

namespace Json

variable {node other : Entries Json} {β : Type} {f : Entries Json → β}

theorem lookup_eq_object {key : String} {entries : Entries Json}
    (h : (node.lookup key).bind entries? = some entries) :
    node.lookup key = some (.object entries) := by
  obtain ⟨value, hv, he⟩ := Option.bind_eq_some_iff.mp h
  rw [hv, entries?_eq_some_iff.mp he]

theorem lookup_eq_array {key : String} {elements : List Json}
    (h : (node.lookup key).bind elements? = some elements) :
    node.lookup key = some (.array elements) := by
  obtain ⟨value, hv, he⟩ := Option.bind_eq_some_iff.mp h
  rw [hv, elements?_eq_some_iff.mp he]

/-- The children under `properties`, each given by an image. -/
def propertyChildren (f : Entries Json → β) (node : Entries Json) : List (Step × β) :=
  (((node.lookup "properties").bind entries?).getD []).filterMap fun entry =>
    entry.2.entries?.map fun child => (.property entry.1, f child)

/-- The children under the other keywords, each given by an image. -/
def furtherChildren (f : Entries Json → β) (node : Entries Json) : List (Step × β) :=
  (((node.lookup "items").bind entries?).toList.map fun child => (.items, f child)) ++
    Composition.all.flatMap fun kind =>
      (((node.lookup kind.keyword).bind elements?).getD []).zipIdx.filterMap fun member =>
        (member.1.entries?.map f).map fun found => (.member kind member.2, found)

theorem map_schemaChildren_eq (f : Entries Json → β) (node : Entries Json) :
    (schemaChildren node).map (Prod.map id f) =
      propertyChildren f node ++ furtherChildren f node := by
  simp only [schemaChildren, propertyChildren, furtherChildren, List.map_append, List.map_flatMap,
    List.map_filterMap, List.map_map, Option.map_map, Function.comp_def, Prod.map, id,
    List.append_assoc]

theorem propertyChild_eq {r : Json → Json → Prop} (hs : ∀ {value other}, r value other →
      value.SameShape other) {properties : Entries Json}
    (hp : (node.lookup "properties").bind entries? = some properties)
    (hf : ∀ step child, SchemaStep node step child →
      ∀ value, r (.object child) (.object value) → f child = f value)
    {entry : String × Json} (he : entry ∈ properties) {value : Json} (hv : r entry.2 value) :
    (entry.2.entries?.map fun child => (Step.property entry.1, f child)) =
      value.entries?.map fun child => (Step.property entry.1, f child) := by
  refine map_eq_map_of_rel ((hs hv).rel_entries? hv) ?_
  intro child hc other ho
  have hn : SchemaStep node (.property entry.1) child := by
    refine .property (lookup_eq_object hp) ?_
    rwa [← entries?_eq_some_iff.mp hc]
  rw [hf _ child hn other ho]

theorem furtherChildren_eq {r : Json → Json → Prop} (hs : ∀ {value other}, r value other →
      value.SameShape other)
    (hi : Option.Rel (fun child value => r (.object child) (.object value))
      ((node.lookup "items").bind entries?) ((other.lookup "items").bind entries?))
    (hm : ∀ kind : Composition, Option.Rel (List.Forall₂ r)
      ((node.lookup kind.keyword).bind elements?) ((other.lookup kind.keyword).bind elements?))
    (hf : ∀ step child, SchemaStep node step child →
      ∀ value, r (.object child) (.object value) → f child = f value) :
    furtherChildren f node = furtherChildren f other := by
  refine congrArg₂ (· ++ ·) ?_ (List.flatMap_congr fun kind _ => ?_)
  · rcases none_or_some_of_rel hi with ⟨hn, ho⟩ | ⟨child, value, hn, ho, hv⟩
    · rw [hn, ho]
    · have hs : SchemaStep node .items child := .items (lookup_eq_object hn)
      rw [hn, ho, Option.toList_some, Option.toList_some, List.map_singleton, List.map_singleton,
        hf _ child hs value hv]
  · rcases none_or_some_of_rel (hm kind) with ⟨hn, ho⟩ | ⟨members, others, hn, ho, hm⟩
    · rw [hn, ho]
    · have he : members.map (fun value => value.entries?.map f) =
          others.map fun value => value.entries?.map f := by
        refine map_eq_map_of_forall₂ hm ?_
        intro member hi value hv
        refine map_eq_map_of_rel ((hs hv).rel_entries? hv) ?_
        intro child hc other ho
        obtain ⟨index, hi⟩ := List.mem_iff_getElem?.mp hi
        have hs : SchemaStep node (.member kind index) child := by
          refine .member (lookup_eq_array hn) ?_
          rw [hi, entries?_eq_some_iff.mp hc]
        exact hf _ child hs other ho
      rw [hn, ho]
      exact filterMap_zipIdx_eq (fun index found => (Step.member kind index, found)) he

end Json

end ApiLint
