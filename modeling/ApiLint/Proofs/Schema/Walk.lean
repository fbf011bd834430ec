import ApiLint.Check.Schema
import ApiLint.Proofs.Diagnostics
import ApiLint.Proofs.Schema.Trees

/-! The walk of a schema finds at each node what its type and its depth tell, in pre-order. -/

namespace ApiLint

/-! ## One step of the walk -/

theorem append_text_property (path name : String) :
    path ++ (Step.property name).text = propertyPath path name := by
  rw [Step.text, propertyPath, String.append_assoc]

theorem append_text_items (path : String) : path ++ Step.items.text = itemsPath path := rfl

theorem append_text_member (path : String) (kind : Composition) (index : Nat) :
    path ++ (Step.member kind index).text = memberPath path kind index := by
  simp only [Step.text, memberPath, String.append_assoc]

/-- Walks the nodes one step below a node at `path`. -/
def walkChildren (limit depth : Nat) (path : String) (children : List (Step × Schema))
    (found : Diagnostics) : Diagnostics :=
  children.foldl (fun found (step, child) => walkNode limit depth (path ++ step.text) child found)
    found

theorem walkEntries_eq (limit depth : Nat) (path : String) (entries : Entries Schema)
    (found : Diagnostics) :
    walkEntries limit depth path entries found =
      walkChildren limit depth path (entries.map fun (name, child) => (.property name, child))
        found := by
  induction entries generalizing found with
  | nil => rfl
  | cons entry rest ih =>
      rw [walkEntries, ih, ← append_text_property]
      rfl

theorem walkProperties_eq (limit depth : Nat) (path : String) (properties : Option (Entries Schema))
    (found : Diagnostics) :
    walkProperties limit depth path properties found =
      walkChildren limit depth path
        ((properties.getD []).map fun (name, child) => (.property name, child)) found := by
  cases properties with
  | none => rfl
  | some entries => exact walkEntries_eq limit depth path entries found

theorem walkItem_eq (limit depth : Nat) (path : String) (step : Step) (item : Option Schema)
    (found : Diagnostics) :
    walkItem limit depth (path ++ step.text) item found =
      walkChildren limit depth path (item.toList.map fun child => (step, child)) found := by
  cases item <;> rfl

theorem walkFrom_eq (limit depth : Nat) (path : String) (kind : Composition) (index : Nat)
    (members : List (Option Schema)) (found : Diagnostics) :
    walkFrom limit depth path kind index members found =
      walkChildren limit depth path
        ((members.zipIdx index).filterMap fun (member, index) =>
          member.map fun child => (.member kind index, child)) found := by
  induction members generalizing index found with
  | nil => rfl
  | cons member rest ih =>
      rw [walkFrom, ih, ← append_text_member, walkItem_eq, List.zipIdx_cons]
      cases member <;> rfl

theorem walkMembers_eq (limit depth : Nat) (path : String) (kind : Composition)
    (members : Option (List (Option Schema))) (found : Diagnostics) :
    walkMembers limit depth path kind members found =
      walkChildren limit depth path
        ((members.getD []).zipIdx.filterMap fun (member, index) =>
          member.map fun child => (.member kind index, child)) found := by
  cases members with
  | none => rfl
  | some members => exact walkFrom_eq limit depth path kind 0 members found

/-- Within the limit a node is checked before its children; beyond it nothing is. -/
theorem walkNode_eq (limit depth : Nat) (path : String) (schema : Schema) (found : Diagnostics) :
    walkNode limit depth path schema found =
      if limit < depth then
        found.push .schemaTooDeep path
          s!"Schema nesting exceeds {limit} levels at {path}. Nested schemas were not checked."
      else
        walkChildren limit (depth + 1) path schema.children
          (match schema.type with
            | some type => checkType type (path ++ ".type") found
            | none => found) := by
  obtain ⟨type, properties, items, oneOf, allOf, anyOf, reference⟩ := schema
  rw [walkNode.eq_def]
  by_cases hd : limit < depth
  · simp only [hd, if_true]
  · simp only [hd, if_false, walkProperties_eq, walkMembers_eq, ← append_text_items, walkItem_eq]
    simp only [Schema.children, walkChildren, Composition.all, List.foldl_append,
      List.flatMap_cons, List.flatMap_nil, List.append_nil]
    rfl

/-! ## What is found at a node -/

/-- The allowed types by their names. -/
theorem mem_allowedTypes_iff {name : String} :
    name ∈ allowedTypes ↔ name = "array" ∨ name = "boolean" ∨ name = "integer" ∨ name = "number" ∨
      name = "object" ∨ name = "string" := by
  simp only [allowedTypes, List.mem_cons, List.not_mem_nil, or_false]

theorem SchemaType.isAllowed_iff {type : SchemaType} :
    type.isAllowed ↔ type = .name "array" ∨ type = .name "boolean" ∨ type = .name "integer" ∨
      type = .name "number" ∨ type = .name "object" ∨ type = .name "string" := by
  cases type with
  | name text => simp only [isAllowed, List.contains_iff_mem, mem_allowedTypes_iff, name.injEq]
  | other value => simp [isAllowed]

/-- The check of a type finds nothing if the type is allowed, and if it is no name. -/
theorem checkType_eq_self_iff {type : SchemaType} {path : String} {found : Diagnostics} :
    checkType type path found = found ↔ type.isAllowed ∨ ∃ value, type = .other value := by
  cases type with
  | other value => simp [checkType]
  | name text =>
      simp only [checkType, SchemaType.isAllowed, List.contains_iff_mem]
      by_cases ha : text ∈ allowedTypes
      · simp [ha]
      · rw [if_neg ha]
        split
        · simp [Diagnostics.push_ne, ha]
        · simp [Diagnostics.push_ne, ha]

/-- The error at a type that is a name but not an allowed one. -/
def typeError? (path name : String) : Option Diagnostic :=
  if name ∈ allowedTypes then none
  else if name = "null" then
    some ⟨.nullType, s!"Invalid type \"null\" at {path}. Use \"nullable: true\" instead.", path⟩
  else
    let allowed := ", ".intercalate allowedTypes
    some ⟨.invalidType, s!"Invalid type \"{name}\" at {path}. Must be one of: {allowed}", path⟩

def depthWarning (limit : Nat) (path : String) : Diagnostic where
  rule := .schemaTooDeep
  message := s!"Schema nesting exceeds {limit} levels at {path}. Nested schemas were not checked."
  path := path

/-- What the walk finds at a node whose type has the given name. -/
def findingAt? (limit : Nat) (base : String) (location : Location) (name? : Option String) :
    Option Diagnostic :=
  if location.length ≤ limit then name?.bind (typeError? (location.path base ++ ".type"))
  else if location.length = limit + 1 then some (depthWarning limit (location.path base))
  else none

theorem findingAt?_of_le {limit : Nat} {location : Location} (h : location.length ≤ limit)
    (base : String) (name? : Option String) :
    findingAt? limit base location name? =
      name?.bind (typeError? (location.path base ++ ".type")) := by
  rw [findingAt?, if_pos h]

theorem findingAt?_of_eq {limit : Nat} {location : Location} (h : location.length = limit + 1)
    (base : String) (name? : Option String) :
    findingAt? limit base location name? = some (depthWarning limit (location.path base)) := by
  rw [findingAt?, if_neg (by omega), if_pos h]

theorem findingAt?_of_lt {limit : Nat} {location : Location} (h : limit + 1 < location.length)
    (base : String) (name? : Option String) : findingAt? limit base location name? = none := by
  rw [findingAt?, if_neg (by omega), if_neg (by omega)]

/-- The errors at the nodes within the limit. -/
def typeErrors (limit : Nat) (base : String) (nodes : List (Location × Option String)) :
    List Diagnostic :=
  (nodes.filter fun node => node.1.length ≤ limit).filterMap fun node =>
    node.2.bind (typeError? (node.1.path base ++ ".type"))

/-- The warnings at the nodes that are the first ones beyond the limit. -/
def depthWarnings (limit : Nat) (base : String) (nodes : List (Location × Option String)) :
    List Diagnostic :=
  (nodes.filter fun node => node.1.length = limit + 1).map fun node =>
    depthWarning limit (node.1.path base)

theorem typeError?_eq_none_iff {path name : String} :
    typeError? path name = none ↔ name ∈ allowedTypes := by
  by_cases h : name ∈ allowedTypes
  · simp [typeError?, h]
  · simp only [typeError?, h, if_false, iff_false]
    split <;> simp

/-- An error at a type stands at the path of the type. -/
theorem typeError?_spec {path name : String} {finding : Diagnostic}
    (h : typeError? path name = some finding) :
    finding.severity = .error ∧ finding.path = path := by
  unfold typeError? at h
  split at h
  · cases h
  · split at h
    · cases h
      exact ⟨rfl, rfl⟩
    · cases h
      exact ⟨rfl, rfl⟩

theorem mem_typeErrors_iff {limit : Nat} {base : String}
    {nodes : List (Location × Option String)} {finding : Diagnostic} :
    finding ∈ typeErrors limit base nodes ↔ ∃ location name, (location, some name) ∈ nodes ∧
      location.length ≤ limit ∧
        typeError? (location.path base ++ ".type") name = some finding := by
  simp only [typeErrors, List.mem_filterMap, List.mem_filter, decide_eq_true_eq,
    Option.bind_eq_some_iff, Prod.exists]
  constructor
  · intro h
    obtain ⟨location, _, ⟨hn, hl⟩, name, rfl, hf⟩ := h
    exact ⟨location, name, hn, hl, hf⟩
  · intro h
    obtain ⟨location, name, hn, hl, hf⟩ := h
    exact ⟨location, some name, ⟨hn, hl⟩, name, rfl, hf⟩

theorem mem_depthWarnings_iff {limit : Nat} {base : String}
    {nodes : List (Location × Option String)} {finding : Diagnostic} :
    finding ∈ depthWarnings limit base nodes ↔ ∃ location name?, (location, name?) ∈ nodes ∧
      location.length = limit + 1 ∧ depthWarning limit (location.path base) = finding := by
  simp only [depthWarnings, List.mem_map, List.mem_filter, decide_eq_true_eq, Prod.exists,
    and_assoc]

theorem filter_typeError? (path : String) (name? : Option String) (severity : Severity) :
    (name?.bind (typeError? path)).filter (·.severity = severity) =
      if severity = .error then name?.bind (typeError? path) else none := by
  cases h : name?.bind (typeError? path) with
  | none => simp
  | some finding =>
      obtain ⟨name, -, hf⟩ := Option.bind_eq_some_iff.mp h
      simp [Option.filter, (typeError?_spec hf).1, eq_comm]

theorem filter_error_findings (limit : Nat) (base : String)
    (nodes : List (Location × Option String)) :
    (nodes.filterMap fun node => findingAt? limit base node.1 node.2).filter
      (·.severity = .error) = typeErrors limit base nodes := by
  rw [List.filter_filterMap, typeErrors, List.filterMap_filter]
  refine List.filterMap_congr fun node _ => ?_
  rcases Nat.lt_trichotomy node.1.length (limit + 1) with hl | hl | hl
  · have hle : node.1.length ≤ limit := by omega
    rw [findingAt?_of_le hle, filter_typeError?, if_pos rfl, if_pos (decide_eq_true hle)]
  · rw [findingAt?_of_eq hl, if_neg (by simp [hl])]
    rfl
  · rw [findingAt?_of_lt hl, if_neg (by simp; omega)]
    rfl

theorem filter_warning_findings (limit : Nat) (base : String)
    (nodes : List (Location × Option String)) :
    (nodes.filterMap fun node => findingAt? limit base node.1 node.2).filter
      (·.severity = .warning) = depthWarnings limit base nodes := by
  rw [List.filter_filterMap, depthWarnings, ← List.filterMap_eq_map', List.filterMap_filter]
  refine List.filterMap_congr fun node _ => ?_
  rcases Nat.lt_trichotomy node.1.length (limit + 1) with hl | hl | hl
  · rw [findingAt?_of_le (by omega), filter_typeError?, if_neg (by decide),
      if_neg (by simp; omega)]
  · rw [findingAt?_of_eq hl, if_pos (by simp [hl])]
    rfl
  · rw [findingAt?_of_lt hl, if_neg (by simp; omega)]
    rfl

/-! ## The whole walk -/

theorem checkType_eq_append (schema : Schema) (path : String) (found : Diagnostics) :
    (match schema.type with
      | some type => checkType type path found
      | none => found) =
      found ++ .ofList (schema.typeName?.bind (typeError? path)).toList := by
  unfold Schema.typeName?
  cases schema.type with
  | none => simp
  | some type =>
      cases type with
      | other value => simp [checkType]
      | name text =>
          simp only [checkType, typeError?, List.contains_iff_mem, Option.bind_some]
          split
          · simp
          · split <;> exact Diagnostics.push_eq_append ..

/-- The walk below a node finds what the nodes tell one by one, in pre-order. -/
theorem walkNode_eq_append (limit : Nat) (base : String) (above : Location) (schema : Schema)
    (found : Diagnostics) (h : above.length ≤ limit + 1) :
    walkNode limit above.length (above.path base) schema found =
      found ++ .ofList ((Schema.tree.nodes schema).filterMap fun node =>
        findingAt? limit base (above ++ node.1) node.2.typeName?) := by
  induction schema using Branching.nodes.induct Schema.tree generalizing above found with
  | case1 schema ih =>
      rw [walkNode_eq, Branching.nodes, List.filterMap_cons, List.append_nil]
      by_cases hd : limit < above.length
      · -- All other nodes lie deeper than the first one, which is at the cut.
        have hl : above.length = limit + 1 := by omega
        have hr : ((Schema.tree.children schema).flatMap fun child =>
            (Schema.tree.nodes child.2).map fun below => (child.1 :: below.1, below.2)).filterMap
              (fun node => findingAt? limit base (above ++ node.1) node.2.typeName?) = [] := by
          apply List.filterMap_eq_nil_iff.mpr
          intro node hn
          obtain ⟨child, -, hb⟩ := List.mem_flatMap.mp hn
          obtain ⟨below, -, rfl⟩ := List.mem_map.mp hb
          apply findingAt?_of_lt
          simp only [List.length_append, List.length_cons]
          omega
        rw [if_pos hd, hr, findingAt?_of_eq hl]
        exact Diagnostics.push_eq_append ..
      · have hstep : ∀ child ∈ schema.children, ∀ found,
            walkNode limit (above.length + 1) (above.path base ++ child.1.text) child.2 found =
              found ++ .ofList ((Schema.tree.nodes child.2).filterMap fun node =>
                findingAt? limit base (above ++ child.1 :: node.1) node.2.typeName?) := by
          intro child hc found
          have := ih child hc (above ++ [child.1]) found (by simp; omega)
          simpa only [Location.path_append, Location.path_cons, Location.path_nil,
            List.length_append, List.length_singleton, List.append_assoc,
            List.singleton_append] using this
        rw [if_neg hd, findingAt?_of_le (by omega), List.filterMap_flatMap, checkType_eq_append,
          walkChildren, Diagnostics.foldl_eq_append _ hstep, Diagnostics.append_assoc,
          ← Diagnostics.ofList_append]
        simp only [List.filterMap_map]
        cases schema.typeName?.bind (typeError? (above.path base ++ ".type")) <;> rfl

/-- The nodes from a schema on, each with its location and the name of its type. -/
def Schema.nodeTypes : Option Schema → List (Location × Option String)
  | none => []
  | some schema => (tree.nodes schema).map (Prod.map id typeName?)

theorem walkSchema_eq_append (options : Options) (schema : Option Schema) (base : String)
    (found : Diagnostics) :
    walkSchema options schema base found =
      found ++ .ofList ((Schema.nodeTypes schema).filterMap fun node =>
        findingAt? options.maxSchemaDepth base node.1 node.2) := by
  cases schema with
  | none => simp [walkSchema, walkItem, Schema.nodeTypes]
  | some schema =>
      rw [Schema.nodeTypes, List.filterMap_map]
      exact walkNode_eq_append _ base [] schema found (Nat.zero_le _)

theorem errors_walkSchema (options : Options) (schema : Option Schema) (base : String)
    (found : Diagnostics) :
    (walkSchema options schema base found).ofSeverity .error =
      found.ofSeverity .error ++
        typeErrors options.maxSchemaDepth base (Schema.nodeTypes schema) := by
  rw [walkSchema_eq_append, Diagnostics.ofSeverity_append, Diagnostics.ofSeverity_ofList,
    filter_error_findings]

theorem warnings_walkSchema (options : Options) (schema : Option Schema) (base : String)
    (found : Diagnostics) :
    (walkSchema options schema base found).ofSeverity .warning =
      found.ofSeverity .warning ++
        depthWarnings options.maxSchemaDepth base (Schema.nodeTypes schema) := by
  rw [walkSchema_eq_append, Diagnostics.ofSeverity_append, Diagnostics.ofSeverity_ofList,
    filter_warning_findings]

/-! ## The walk of a value -/

/-- The schema nodes of a value, each with its location and the text of its type. -/
def Json.nodeTypes (value : Json) : List (Location × Option String) :=
  value.schemaNodes.map (Prod.map id typeName?)

theorem Schema.nodeTypes_ofJson? (value : Json) : nodeTypes (ofJson? value) = value.nodeTypes := by
  rw [ofJson?_eq_map, Json.nodeTypes, Json.schemaNodes]
  cases value.entries? with
  | none => rfl
  | some node =>
      simp only [Option.map_some, Option.getD_some, nodeTypes, nodes_ofEntries, List.map_map]
      refine List.map_congr_left fun entry _ => ?_
      simp only [Function.comp_apply, Prod.map, id, typeName?_ofEntries]

theorem Json.mem_nodeTypes_iff {value : Json} {location : Location} {name : String} :
    (location, some name) ∈ value.nodeTypes ↔ ∃ root node, value = .object root ∧
      schemaTree.Reaches root location node ∧ node.lookup "type" = some (.string name) := by
  simp only [nodeTypes, schemaNodes, List.mem_map, mem_getD_nil_iff, Option.map_eq_some_iff,
    entries?_eq_some_iff, Prod.exists, Prod.map, Prod.mk.injEq, id]
  constructor
  · intro h
    obtain ⟨_, node, ⟨_, ⟨root, rfl, rfl⟩, hn⟩, rfl, ht⟩ := h
    obtain ⟨_, ht, hs⟩ := Option.bind_eq_some_iff.mp ht
    obtain rfl := string?_eq_some_iff.mp hs
    exact ⟨root, node, rfl, Branching.mem_nodes_iff.mp hn, ht⟩
  · intro h
    obtain ⟨root, node, rfl, hr, ht⟩ := h
    refine ⟨location, node, ⟨_, ⟨root, rfl, rfl⟩, Branching.mem_nodes_iff.mpr hr⟩, rfl, ?_⟩
    rw [typeName?, ht]
    rfl

/-- The walk of a value finds an error at each node within the limit whose type is a string but not
an allowed name, a warning at each node that is the first one beyond it, and nothing else. -/
theorem walkSchema_ofJson? (options : Options) (value : Json) (base : String)
    (found : Diagnostics) :
    (walkSchema options (Schema.ofJson? value) base found).errors.toList =
        found.errors.toList ++ typeErrors options.maxSchemaDepth base value.nodeTypes ∧
      (walkSchema options (Schema.ofJson? value) base found).warnings.toList =
        found.warnings.toList ++ depthWarnings options.maxSchemaDepth base value.nodeTypes := by
  rw [← Schema.nodeTypes_ofJson?]
  exact ⟨errors_walkSchema options _ base found, warnings_walkSchema options _ base found⟩

end ApiLint
