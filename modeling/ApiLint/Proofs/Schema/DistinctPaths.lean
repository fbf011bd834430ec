import ApiLint.Proofs.Json.Reordering
import ApiLint.Proofs.Schema.Children
import ApiLint.Proofs.Schema.Paths
import ApiLint.Proofs.Schema.Walk

/-! The paths of what a walk finds. Where the properties of each node have different names, the
nodes stand at different locations, and so their findings have different paths. -/

namespace ApiLint

/-! ## The locations of a tree -/

/-- Where no node has two children at one step, no two nodes stand at one location. -/
theorem Branching.pairwise_nodes {α : Type} {tree : Branching α} {root : α}
    (h : ∀ location node, tree.Reaches root location node →
      (tree.children node).Pairwise fun child other => child.1 ≠ other.1) :
    (tree.nodes root).Pairwise fun node other => node.1 ≠ other.1 := by
  induction root using nodes.induct tree with
  | case1 root ih =>
      rw [nodes]
      refine List.pairwise_cons.mpr ⟨?_, List.pairwise_flatMap.mpr ⟨?_, ?_⟩⟩
      · intro node hn
        obtain ⟨child, -, hb⟩ := List.mem_flatMap.mp hn
        obtain ⟨below, -, rfl⟩ := List.mem_map.mp hb
        exact List.cons_ne_nil _ _ |>.symm
      · intro child hc
        have hb := ih child hc fun location node hr => h _ node (.down hc hr)
        exact List.pairwise_map.mpr (hb.imp fun hne he => hne (List.cons.inj he).2)
      · refine (h [] root (.here root)).imp ?_
        intro child other hne node hn node' hn' he
        obtain ⟨below, -, rfl⟩ := List.mem_map.mp hn
        obtain ⟨below', -, rfl⟩ := List.mem_map.mp hn'
        exact hne (List.cons.inj he).1

theorem Json.SchemaStep.uniqueKeys {node child : Entries Json} {step : Step}
    (h : SchemaStep node step child) (hu : (object node).UniqueKeys) :
    (object child).UniqueKeys := by
  cases h with
  | property hp hc => exact (hu.entry (mem_of_lookup_eq_some hp)).entry hc
  | items hi => exact hu.entry (mem_of_lookup_eq_some hi)
  | member hm hc =>
      exact (hu.entry (mem_of_lookup_eq_some hm)).element (List.mem_of_getElem? hc)

theorem Json.uniqueKeys_of_reaches {root node : Entries Json} {location : Location}
    (h : schemaTree.Reaches root location node) (hu : (object root).UniqueKeys) :
    (object node).UniqueKeys := by
  induction h with
  | here => exact hu
  | down hc _ ih => exact ih ((mem_schemaChildren_iff.mp hc).uniqueKeys hu)

namespace Schema

/-- No node has two properties of one name. Schemas that are read never do. -/
def UniqueNames (schema : Schema) : Prop := ∀ location node, tree.Reaches schema location node →
  ((node.properties.getD []).map Prod.fst).Nodup

/-- No node has a property with a dot in its name. -/
def DotFreeNames (schema : Schema) : Prop := ∀ location node, tree.Reaches schema location node →
  ∀ entry ∈ node.properties.getD [], '.' ∉ entry.1.toList

theorem exists_index_of_mem_members {kind : Composition} {members : List (Option Schema)}
    {child : Step × Schema}
    (h : child ∈ members.zipIdx.filterMap fun (member, index) =>
      member.map fun node => (Step.member kind index, node)) :
    ∃ index, child.1 = .member kind index := by
  obtain ⟨member, -, hm⟩ := List.mem_filterMap.mp h
  obtain ⟨node, -, rfl⟩ := Option.map_eq_some_iff.mp hm
  exact ⟨member.2, rfl⟩

theorem pairwise_members (kind : Composition) (members : List (Option Schema)) :
    (members.zipIdx.filterMap fun (member, index) =>
      member.map fun child => (Step.member kind index, child)).Pairwise
        fun child other => child.1 ≠ other.1 := by
  have hn : members.zipIdx.Pairwise fun member other => member.2 ≠ other.2 := by
    rw [← List.pairwise_map (f := Prod.snd), List.zipIdx_map_snd]
    exact List.nodup_range'
  refine List.pairwise_filterMap.mpr (hn.imp ?_)
  intro member other hne child hc child' hc' he
  obtain ⟨_, -, rfl⟩ := Option.map_eq_some_iff.mp hc
  obtain ⟨_, -, rfl⟩ := Option.map_eq_some_iff.mp hc'
  exact hne (Step.member.inj he).2

theorem pairwise_children {schema : Schema}
    (h : ((schema.properties.getD []).map Prod.fst).Nodup) :
    schema.children.Pairwise fun child other => child.1 ≠ other.1 := by
  refine List.pairwise_append.mpr ⟨List.pairwise_append.mpr ⟨?_, ?_, ?_⟩, ?_, ?_⟩
  · refine List.pairwise_map.mpr ((List.pairwise_map.mp h).imp ?_)
    intro entry other hne he
    exact hne (Step.property.inj he)
  · cases schema.items <;> simp
  · intro child hc other ho he
    obtain ⟨entry, -, rfl⟩ := List.mem_map.mp hc
    obtain ⟨item, -, rfl⟩ := List.mem_map.mp ho
    cases he
  · refine List.pairwise_flatMap.mpr ⟨fun kind _ => pairwise_members kind _, ?_⟩
    have hk : Composition.all.Pairwise fun kind other => kind ≠ other := by decide
    refine hk.imp ?_
    intro kind kind' hne child hc other ho he
    obtain ⟨index, hi⟩ := exists_index_of_mem_members hc
    obtain ⟨index', hi'⟩ := exists_index_of_mem_members ho
    rw [hi, hi'] at he
    exact hne (Step.member.inj he).1
  · intro child hc other ho he
    obtain ⟨kind, -, ho⟩ := List.mem_flatMap.mp ho
    obtain ⟨index, hi⟩ := exists_index_of_mem_members ho
    rw [hi] at he
    rcases List.mem_append.mp hc with hc | hc
    · obtain ⟨entry, -, rfl⟩ := List.mem_map.mp hc
      cases he
    · obtain ⟨item, -, rfl⟩ := List.mem_map.mp hc
      cases he

theorem dotFree_of_mem_children {schema : Schema} {child : Step × Schema}
    (h : ∀ entry ∈ schema.properties.getD [], '.' ∉ entry.1.toList)
    (hc : child ∈ schema.children) : child.1.DotFree := by
  simp only [children, List.mem_append] at hc
  rcases hc with (hc | hc) | hc
  · obtain ⟨entry, he, rfl⟩ := List.mem_map.mp hc
    exact h entry he
  · obtain ⟨item, -, rfl⟩ := List.mem_map.mp hc
    trivial
  · obtain ⟨kind, -, hc⟩ := List.mem_flatMap.mp hc
    obtain ⟨index, hi⟩ := exists_index_of_mem_members hc
    rw [hi]
    trivial

theorem DotFreeNames.dotFree {schema node : Schema} {location : Location}
    (h : schema.DotFreeNames) (hr : tree.Reaches schema location node) : location.DotFree := by
  induction hr with
  | here node => exact fun _ hs => absurd hs List.not_mem_nil
  | down hc _ ih =>
      refine List.forall_mem_cons.mpr ⟨dotFree_of_mem_children (h [] _ (.here _)) hc, ih ?_⟩
      exact fun location node hr => h _ node (.down hc hr)

/-- Schemas that are read from values never have two properties of one name, as no object holds a
key twice. -/
theorem uniqueNames_ofJson? {value : Json} {schema : Schema} (hu : value.UniqueKeys)
    (h : ofJson? value = some schema) : schema.UniqueNames := by
  rw [ofJson?_eq_map] at h
  obtain ⟨root, hv, rfl⟩ := Option.map_eq_some_iff.mp h
  obtain rfl := Json.entries?_eq_some_iff.mp hv
  intro location node hr
  have hm := Branching.mem_nodes_iff.mpr hr
  rw [nodes_ofEntries] at hm
  obtain ⟨⟨location, entries⟩, hn, he⟩ := List.mem_map.mp hm
  obtain ⟨rfl, rfl⟩ := Prod.mk.inj he
  have hk := Json.uniqueKeys_of_reaches (Branching.mem_nodes_iff.mp hn) hu
  rw [properties_ofEntries]
  cases hp : (entries.lookup "properties").bind Json.entries? with
  | none => exact List.nodup_nil
  | some properties =>
      have hq : (Json.object properties).UniqueKeys :=
        hk.entry (mem_of_lookup_eq_some (Json.lookup_eq_object hp))
      refine List.pairwise_map.mpr (List.pairwise_filterMap.mpr
        ((List.pairwise_map.mp hq.keys).imp ?_))
      intro entry other hne image hi image' hi'
      obtain ⟨_, -, rfl⟩ := Option.map_eq_some_iff.mp hi
      obtain ⟨_, -, rfl⟩ := Option.map_eq_some_iff.mp hi'
      exact hne

end Schema

/-! ## The paths of findings -/

/-- A finding at a node has the path of the node or of its type. -/
theorem path_of_findingAt? {limit : Nat} {base : String} {location : Location}
    {name? : Option String} {finding : Diagnostic}
    (h : findingAt? limit base location name? = some finding) :
    finding.path = location.path base ++ ".type" ∨ finding.path = location.path base := by
  rcases Nat.lt_trichotomy location.length (limit + 1) with hl | hl | hl
  · rw [findingAt?_of_le (by omega)] at h
    obtain ⟨name, -, hf⟩ := Option.bind_eq_some_iff.mp h
    exact .inl (typeError?_spec hf).2
  · rw [findingAt?_of_eq hl, Option.some.injEq] at h
    subst h
    exact .inr rfl
  · rw [findingAt?_of_lt hl] at h
    cases h

/-- Findings at different nodes have different paths. -/
theorem path_ne_of_findingAt? {limit : Nat} {base : String} {location other : Location}
    {name? name?' : Option String} {finding finding' : Diagnostic} (hl : location.DotFree)
    (ho : other.DotFree) (hne : location ≠ other)
    (hf : findingAt? limit base location name? = some finding)
    (hf' : findingAt? limit base other name?' = some finding') : finding.path ≠ finding'.path := by
  intro he
  rcases path_of_findingAt? hf with hp | hp <;> rcases path_of_findingAt? hf' with hp' | hp' <;>
    rw [hp, hp'] at he
  · exact hne (Location.path_inj hl ho ((String.append_left_inj _).mp he))
  · exact Location.path_ne_append_type ho hl he.symm
  · exact Location.path_ne_append_type hl ho he
  · exact hne (Location.path_inj hl ho he)

theorem pairwise_path_ne {schema : Schema} (hu : schema.UniqueNames) (hd : schema.DotFreeNames)
    (limit : Nat) (base : String) :
    ((Schema.nodeTypes (some schema)).filterMap fun node =>
      findingAt? limit base node.1 node.2).Pairwise fun finding other =>
        finding.path ≠ other.path := by
  have hn : (Schema.tree.nodes schema).Pairwise fun node other => node.1 ≠ other.1 :=
    Branching.pairwise_nodes fun location node hr => Schema.pairwise_children (hu location node hr)
  rw [Schema.nodeTypes, List.filterMap_map]
  refine List.pairwise_filterMap.mpr (hn.imp_of_mem ?_)
  intro node other hm hm' hne finding hf finding' hf'
  exact path_ne_of_findingAt? (hd.dotFree (Branching.mem_nodes_iff.mp hm))
    (hd.dotFree (Branching.mem_nodes_iff.mp hm')) hne hf hf'

theorem perm_of_severities (findings : List Diagnostic) :
    (findings.filter (·.severity = .error) ++ findings.filter (·.severity = .warning)).Perm
      findings := by
  have hs : findings.filter (·.severity = .warning) =
      findings.filter fun finding => !decide (finding.severity = .error) := by
    refine List.filter_congr fun finding _ => ?_
    cases finding.severity <;> rfl
  rw [hs]
  exact List.filter_append_perm _ findings

/-- Without dots in the names of properties a path identifies a node: what a walk finds are findings
at different paths, different locations have different paths, and none of them is the path of the
type of another one. -/
theorem path_identifies_node (base : String) :
    (∀ (options : Options) (schema : Schema) (found : Diagnostics),
      schema.UniqueNames → schema.DotFreeNames →
        ∃ errors warnings : List Diagnostic,
          (walkSchema options (some schema) base found).errors.toList =
              found.errors.toList ++ errors ∧
            (walkSchema options (some schema) base found).warnings.toList =
              found.warnings.toList ++ warnings ∧
            ((errors ++ warnings).map Diagnostic.path).Nodup) ∧
      ∀ location other : Location, location.DotFree → other.DotFree →
        (location.path base = other.path base → location = other) ∧
          location.path base ≠ other.path base ++ ".type" := by
  constructor
  · intro options schema found hu hd
    refine ⟨_, _, errors_walkSchema options (some schema) base found,
      warnings_walkSchema options (some schema) base found, ?_⟩
    rw [← filter_error_findings, ← filter_warning_findings]
    have hp := pairwise_path_ne hu hd options.maxSchemaDepth base
    exact ((perm_of_severities _).map _).nodup_iff.mpr (List.pairwise_map.mpr hp)
  · intro location other hl ho
    exact ⟨Location.path_inj hl ho, Location.path_ne_append_type hl ho⟩

/-- A node without any below it, of a type that is not allowed. -/
def nullNode : Schema := .node (some (.name "null")) none none none none none none

/-- Properties with names that could be taken for steps. -/
def keywordNames : Schema :=
  .node none
    (some [("items", nullNode), ("", nullNode), ("type", nullNode), ("oneOf[1]", nullNode)])
    (some nullNode) (some [none, some nullNode]) none none none

/-- The value that this schema is read from. -/
def keywordValue : Json :=
  let leaf : Json := .object [("type", .string "null")]
  .object [
    ("properties", .object [("items", leaf), ("", leaf), ("type", leaf), ("oneOf[1]", leaf)]),
    ("items", leaf),
    ("oneOf", .array [.bool true, leaf])]

theorem eq_of_reaches_keywordNames {location : Location} {node : Schema}
    (h : Schema.tree.Reaches keywordNames location node) :
    node = keywordNames ∨ node = nullNode := by
  have hc : ∀ child ∈ keywordNames.children, child.2 = nullNode := by
    simp [Schema.children, keywordNames, Schema.properties, Schema.items, Schema.members,
      Composition.all]
  cases h with
  | here => exact .inl rfl
  | @down _ _ child location hm h =>
      obtain ⟨step, child⟩ := child
      obtain rfl : child = nullNode := hc _ hm
      cases h with
      | here => exact .inr rfl
      | down hm h => cases hm

theorem path_identifies_node_keywordNames :
    Schema.ofJson? keywordValue = some keywordNames ∧
      keywordNames.UniqueNames ∧ keywordNames.DotFreeNames ∧
      (∃ errors warnings : List Diagnostic,
        (walkSchema {} (some keywordNames) "Pet" {}).errors.toList = [] ++ errors ∧
          (walkSchema {} (some keywordNames) "Pet" {}).warnings.toList = [] ++ warnings ∧
          ((errors ++ warnings).map Diagnostic.path).Nodup) ∧
      Location.DotFree [.property "oneOf[1]"] ∧ Location.DotFree [.member .oneOf 1] ∧
      Location.path "Pet" [.property "oneOf[1]"] ≠ Location.path "Pet" [.member .oneOf 1] := by
  have hk : keywordValue.UniqueKeys := by simp [Json.UniqueKeys, keywordValue]
  have hr : Schema.ofJson? keywordValue = some keywordNames := rfl
  have hu : keywordNames.UniqueNames := Schema.uniqueNames_ofJson? hk hr
  have hd : keywordNames.DotFreeNames := by
    intro location node hr
    rcases eq_of_reaches_keywordNames hr with rfl | rfl
    · simp [keywordNames, Schema.properties]
    · exact List.forall_mem_nil _
  have hp : Location.DotFree [.property "oneOf[1]"] := by simp [Location.DotFree, Step.DotFree]
  have hm : Location.DotFree [.member .oneOf 1] := by simp [Location.DotFree, Step.DotFree]
  obtain ⟨hw, hl⟩ := path_identifies_node "Pet"
  refine ⟨hr, hu, hd, hw {} keywordNames {} hu hd, hp, hm, ?_⟩
  intro he
  have := (hl _ _ hp hm).1 he
  simp at this

end ApiLint
