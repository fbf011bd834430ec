import ApiLint.Proofs.Json
import ApiLint.Proofs.Schema.Nodes

/-! Schemas and the objects that they are read from are the same tree: reading a node carries its
children, and so all nodes below it, over at the same locations. -/

namespace ApiLint

namespace Schema

/-- The nodes one step below, in the order in which they are visited. -/
def children (schema : Schema) : List (Step × Schema) :=
  ((schema.properties.getD []).map fun (name, child) => (.property name, child)) ++
    (schema.items.toList.map fun child => (.items, child)) ++
    Composition.all.flatMap fun kind =>
      ((schema.members kind).getD []).zipIdx.filterMap fun (member, index) =>
        member.map fun child => (.member kind index, child)

/-- The text of a `type` that is a name. -/
def typeName? (schema : Schema) : Option String :=
  match schema.type with
  | some (.name text) => some text
  | _ => none

/-- The node that the entries of an object stand for. -/
def ofEntries (entries : Entries Json) : Schema :=
  .node ((entries.lookup "type").bind SchemaType.ofJson?) (propertiesIn entries)
    (itemsIn entries) (membersIn .oneOf entries) (membersIn .allOf entries)
    (membersIn .anyOf entries) ((entries.lookup "$ref").bind Json.string?)

theorem ofJson?_eq_map (value : Json) : ofJson? value = value.entries?.map ofEntries := by
  cases value <;> rfl

theorem sizeOf_lt_of_property {schema child : Schema} {entries : Entries Schema} {name : String}
    (he : schema.properties = some entries) (hc : (name, child) ∈ entries) :
    sizeOf child < sizeOf schema := by
  obtain ⟨type, properties, items, oneOf, allOf, anyOf, reference⟩ := schema
  obtain rfl : properties = some entries := he
  have := List.sizeOf_lt_of_mem hc
  simp only [Prod.mk.sizeOf_spec] at this
  simp only [node.sizeOf_spec, Option.some.sizeOf_spec]
  omega

theorem sizeOf_lt_of_items {schema child : Schema} (hi : schema.items = some child) :
    sizeOf child < sizeOf schema := by
  obtain ⟨type, properties, items, oneOf, allOf, anyOf, reference⟩ := schema
  obtain rfl : items = some child := hi
  simp only [node.sizeOf_spec, Option.some.sizeOf_spec]
  omega

theorem sizeOf_lt_of_member {schema child : Schema} {kind : Composition}
    {members : List (Option Schema)} (hm : schema.members kind = some members)
    (hc : some child ∈ members) : sizeOf child < sizeOf schema := by
  obtain ⟨type, properties, items, oneOf, allOf, anyOf, reference⟩ := schema
  have := List.sizeOf_lt_of_mem hc
  simp only [Option.some.sizeOf_spec] at this
  cases kind <;>
    · simp only [Schema.members] at hm
      subst hm
      simp only [node.sizeOf_spec, Option.some.sizeOf_spec]
      omega

theorem sizeOf_of_mem_children {schema child : Schema} {step : Step}
    (h : (step, child) ∈ schema.children) : sizeOf child < sizeOf schema := by
  simp only [children, List.mem_append] at h
  rcases h with (h | h) | h
  · obtain ⟨⟨name, entry⟩, he, hs⟩ := List.mem_map.mp h
    obtain ⟨rfl, rfl⟩ := Prod.mk.inj hs
    cases hp : schema.properties with
    | none => simp [hp] at he
    | some entries => exact sizeOf_lt_of_property hp (by simpa [hp] using he)
  · obtain ⟨item, hi, hs⟩ := List.mem_map.mp h
    obtain ⟨rfl, rfl⟩ := Prod.mk.inj hs
    exact sizeOf_lt_of_items (Option.mem_toList.mp hi)
  · obtain ⟨kind, -, hk⟩ := List.mem_flatMap.mp h
    obtain ⟨⟨member, index⟩, hm, hs⟩ := List.mem_filterMap.mp hk
    obtain ⟨entry, rfl, hs⟩ := Option.map_eq_some_iff.mp hs
    obtain ⟨rfl, rfl⟩ := Prod.mk.inj hs
    have hmem := List.fst_mem_of_mem_zipIdx hm
    cases hk : schema.members kind with
    | none => simp [hk] at hmem
    | some members => exact sizeOf_lt_of_member hk (by simpa [hk] using hmem)

/-- A schema with the nodes below it. -/
def tree : Branching Schema where
  children := children
  wellFounded := Subrelation.wf (fun ⟨_, h⟩ => sizeOf_of_mem_children h) (measure sizeOf).wf

end Schema

namespace Json

/-- The objects one step below a schema that is an object itself. An element of an array counts for
the positions of those after it, whatever it is. -/
def schemaChildren (node : Entries Json) : List (Step × Entries Json) :=
  ((((node.lookup "properties").bind entries?).getD []).filterMap fun (name, value) =>
      value.entries?.map fun child => (.property name, child)) ++
    (((node.lookup "items").bind entries?).toList.map fun child => (.items, child)) ++
    Composition.all.flatMap fun kind =>
      (((node.lookup kind.keyword).bind elements?).getD []).zipIdx.filterMap fun (value, index) =>
        value.entries?.map fun child => (.member kind index, child)

/-- The steps from an object to the objects below it. -/
inductive SchemaStep (node : Entries Json) : Step → Entries Json → Prop where
  | property {properties name child} : node.lookup "properties" = some (.object properties) →
      (name, .object child) ∈ properties → SchemaStep node (.property name) child
  | items {child} : node.lookup "items" = some (.object child) → SchemaStep node .items child
  | member {kind : Composition} {members index child} :
      node.lookup kind.keyword = some (.array members) → members[index]? = some (.object child) →
      SchemaStep node (.member kind index) child

theorem mem_schemaChildren_iff {node child : Entries Json} {step : Step} :
    (step, child) ∈ schemaChildren node ↔ SchemaStep node step child := by
  simp only [schemaChildren, List.mem_append, List.mem_filterMap, List.mem_map, List.mem_flatMap,
    mem_getD_nil_iff, Option.bind_eq_some_iff, Option.map_eq_some_iff, Option.mem_toList,
    entries?_eq_some_iff, elements?_eq_some_iff, exists_eq_right, Prod.exists, Prod.mk.injEq,
    List.mk_mem_zipIdx_iff_getElem?, getElem?_getD_nil_iff]
  constructor
  · rintro
      ((⟨name, value, ⟨properties, hp, hv⟩, entries, rfl, rfl, rfl⟩ | ⟨entries, hi, rfl, rfl⟩) |
        ⟨kind, -, value, index, ⟨members, hm, hv⟩, entries, rfl, rfl, rfl⟩)
    · exact .property hp hv
    · exact .items hi
    · exact .member hm hv
  · intro h
    cases h with
    | @property properties name child hp hc =>
        exact .inl (.inl ⟨name, .object child, ⟨properties, hp, hc⟩, child, rfl, rfl, rfl⟩)
    | @items child hi => exact .inl (.inr ⟨child, hi, rfl, rfl⟩)
    | @member kind members index child hm hc =>
        have hk : kind ∈ Composition.all := by cases kind <;> decide
        exact .inr ⟨kind, hk, .object child, index, ⟨members, hm, hc⟩, child, rfl, rfl, rfl⟩

theorem sizeOf_lt_of_mem_object {entries child : Entries Json} {key : String}
    (h : (key, .object child) ∈ entries) : sizeOf child < sizeOf entries := by
  have := List.sizeOf_lt_of_mem h
  simp only [Prod.mk.sizeOf_spec, object.sizeOf_spec] at this
  omega

theorem sizeOf_lt_of_mem_array {entries : Entries Json} {elements : List Json} {key : String}
    (h : (key, .array elements) ∈ entries) : sizeOf elements < sizeOf entries := by
  have := List.sizeOf_lt_of_mem h
  simp only [Prod.mk.sizeOf_spec, array.sizeOf_spec] at this
  omega

theorem SchemaStep.sizeOf_lt {node child : Entries Json} {step : Step}
    (h : SchemaStep node step child) : sizeOf child < sizeOf node := by
  cases h with
  | property hp hc =>
      exact (sizeOf_lt_of_mem_object hc).trans (sizeOf_lt_of_mem_object (mem_of_lookup_eq_some hp))
  | items hi => exact sizeOf_lt_of_mem_object (mem_of_lookup_eq_some hi)
  | member hm hc =>
      have hlt := List.sizeOf_lt_of_mem (List.mem_of_getElem? hc)
      rw [object.sizeOf_spec] at hlt
      have := sizeOf_lt_of_mem_array (mem_of_lookup_eq_some hm)
      omega

/-- An object that is a schema with the objects below it. -/
def schemaTree : Branching (Entries Json) where
  children := schemaChildren
  wellFounded :=
    Subrelation.wf (fun ⟨_, h⟩ => (mem_schemaChildren_iff.mp h).sizeOf_lt) (measure sizeOf).wf

/-- The objects among a value and what stands below it that are schema nodes. -/
def schemaNodes (value : Json) : List (Location × Entries Json) :=
  (value.entries?.map schemaTree.nodes).getD []

/-- The text of a `type` that is a string. -/
def typeName? (node : Entries Json) : Option String := (node.lookup "type").bind string?

end Json

/-! ## Reading keeps the children -/

namespace Schema

theorem properties_ofEntries (node : Entries Json) :
    (ofEntries node).properties =
      ((node.lookup "properties").bind Json.entries?).map fun properties =>
        properties.filterMap fun (name, value) =>
          value.entries?.map fun child => (name, ofEntries child) := by
  change propertiesIn node = _
  rw [propertiesIn_eq_lookup]
  cases node.lookup "properties" with
  | none => rfl
  | some value =>
      rw [Option.bind_some, Option.bind_some, namedNodes?_eq_map]
      refine congrArg (Option.map · value.entries?) (funext fun properties => ?_)
      rw [nodesAmong_eq_filterMap]
      refine List.filterMap_congr fun entry _ => ?_
      rw [ofJson?_eq_map, Option.map_map]
      rfl

theorem items_ofEntries (node : Entries Json) :
    (ofEntries node).items = ((node.lookup "items").bind Json.entries?).map ofEntries := by
  change itemsIn node = _
  rw [itemsIn_eq_lookup]
  cases node.lookup "items" with
  | none => rfl
  | some value => exact ofJson?_eq_map value

theorem members_ofEntries (node : Entries Json) (kind : Composition) :
    (ofEntries node).members kind =
      ((node.lookup kind.keyword).bind Json.elements?).map (List.map ofJson?) := by
  have h : (ofEntries node).members kind = membersIn kind node := by cases kind <;> rfl
  rw [h, membersIn_eq_lookup]
  cases node.lookup kind.keyword with
  | none => rfl
  | some value => exact listedNodes?_eq_map value

theorem children_ofEntries (node : Entries Json) :
    (ofEntries node).children = (Json.schemaChildren node).map (Prod.map id ofEntries) := by
  simp only [children, Json.schemaChildren, List.map_append, List.map_flatMap]
  refine congrArg₂ (· ++ ·) (congrArg₂ (· ++ ·) ?_ ?_) (List.flatMap_congr fun kind _ => ?_)
  · rw [properties_ofEntries]
    cases (node.lookup "properties").bind Json.entries? with
    | none => rfl
    | some properties =>
        simp only [Option.map_some, Option.getD_some, List.map_filterMap, Option.map_map]
        rfl
  · rw [items_ofEntries]
    cases (node.lookup "items").bind Json.entries? <;> rfl
  · rw [members_ofEntries]
    cases (node.lookup kind.keyword).bind Json.elements? with
    | none => rfl
    | some members =>
        simp only [Option.map_some, Option.getD_some, List.zipIdx_map, List.filterMap_map,
          List.map_filterMap]
        refine List.filterMap_congr fun entry _ => ?_
        simp only [Function.comp_apply, Prod.map, ofJson?_eq_map, Option.map_map]
        rfl

theorem nodes_ofEntries (node : Entries Json) :
    tree.nodes (ofEntries node) = (Json.schemaTree.nodes node).map (Prod.map id ofEntries) :=
  Branching.nodes_map _ _ ofEntries children_ofEntries node

theorem typeName?_ofEntries (node : Entries Json) :
    (ofEntries node).typeName? = Json.typeName? node := by
  unfold typeName? Json.typeName?
  change (match (node.lookup "type").bind SchemaType.ofJson? with
    | some (.name text) => some text
    | _ => none) = _
  cases node.lookup "type" with
  | none => rfl
  | some value => cases value <;> rfl

end Schema

end ApiLint
