import ApiLint.Load
import ApiLint.Proofs.Report.DepthLimit
import ApiLint.Proofs.Report.SchemaFindings
import ApiLint.Proofs.Yaml.Nesting

/-! Every schema stands within three collections at least, and every step below it goes into one
more. A value that is nested no more than four levels beyond the limit of depth is therefore checked
in full, and no more than that can be said: one level more is enough for a schema that is cut off.
-/

namespace ApiLint

/-! ## From nodes to levels -/

namespace Json

/-- Going from one node to the next costs a level. -/
theorem SchemaStep.nesting_lt {node child : Entries Json} {step : Step}
    (h : SchemaStep node step child) : (object child).nesting < (object node).nesting := by
  have below {key : String} {value : Json} (hl : node.lookup key = some value) :
      value.nesting < (object node).nesting := nesting_lt_of_mem_entries (mem_of_lookup_eq_some hl)
  cases h with
  | property hp hc => exact (nesting_lt_of_mem_entries hc).trans (below hp)
  | items hi => exact below hi
  | member hm hc => exact (nesting_lt_of_mem_elements (List.mem_of_getElem? hc)).trans (below hm)

theorem HasComponent.nesting_le {value : Json} {root : Entries Json}
    (h : value.HasComponent root) : (object root).nesting + 3 ≤ value.nesting := by
  obtain ⟨hc, hs, hr⟩ := h
  have := nesting_lt_of_get? hc
  have := nesting_lt_of_get? hs
  have := nesting_lt_of_mem_entries hr
  dsimp only at this
  omega

theorem HasOperation.nesting_le {value operation : Json} {path key : String} {method : HttpMethod}
    (h : value.HasOperation path key method operation) :
    operation.nesting + 3 ≤ value.nesting := by
  obtain ⟨hp, hi, ho, -⟩ := h
  have := nesting_lt_of_get? hp
  have := nesting_lt_of_mem_entries hi
  have := nesting_lt_of_mem_entries ho
  dsimp only at *
  omega

theorem HasBody.nesting_le {operation : Json} {root : Entries Json} (h : operation.HasBody root) :
    (object root).nesting + 5 ≤ operation.nesting := by
  obtain ⟨hv, hr, hc, hm, hs⟩ := h
  have := nesting_lt_of_get? hv
  have := nesting_lt_of_mem_entries hr
  have := nesting_lt_of_get? hc
  have := nesting_lt_of_mem_entries hm
  have := nesting_lt_of_get? hs
  dsimp only at *
  omega

theorem HasSchema.nesting_le {value : Json} {root : Entries Json} (h : value.HasSchema root) :
    (object root).nesting + 3 ≤ value.nesting := by
  cases h with
  | component h => exact h.nesting_le
  | body ho hb =>
      have := ho.nesting_le
      have := hb.nesting_le
      omega

/-- There are three levels around a schema at least, and one for each step below it. -/
theorem HasSchemaNode.nesting_le {value : Json} {depth : Nat} {node : Entries Json}
    (h : value.HasSchemaNode depth node) :
    (object node).nesting + depth + 3 ≤ value.nesting := by
  induction h with
  | root hr => exact hr.nesting_le
  | step _ hs ih =>
      have := hs.nesting_lt
      omega

/-- The node itself is a level too. -/
theorem HasSchemaNode.depth_le {value : Json} {depth : Nat} {node : Entries Json}
    (h : value.HasSchemaNode depth node) : depth + 4 ≤ value.nesting := by
  have hn : 1 ≤ (object node).nesting := Nat.le_add_left 1 _
  have := h.nesting_le
  omega

end Json

/-! ## Values that are checked in full -/

/-- No schema of a value is cut off: there is no warning about depth, every node is within the limit
and has its error in the report if it is of a wrong type, and a higher limit makes no difference. -/
structure CheckedInFull (value : Json) (options : Options) : Prop where
  uncut : ∀ warning ∈ (validate (.ofJson value) options).warnings, warning.rule ≠ .schemaTooDeep
  within : ∀ depth node, value.HasSchemaNode depth node → depth ≤ options.maxSchemaDepth
  checked : ∀ schema ∈ (Document.ofJson value).schemas, ∀ location name error,
    (location, some name) ∈ Schema.nodeTypes schema.2 →
      typeError? (location.path schema.1 ++ ".type") name = some error →
        error ∈ (validate (.ofJson value) options).errors
  final : ∀ higher : Options, options.maxSchemaDepth ≤ higher.maxSchemaDepth →
    validate (.ofJson value) options = validate (.ofJson value) higher

theorem checkedInFull_of_within {value : Json} {options : Options}
    (h : ∀ depth node, value.HasSchemaNode depth node → depth ≤ options.maxSchemaDepth) :
    CheckedInFull value options := by
  have huncut : ∀ warning ∈ (validate (.ofJson value) options).warnings,
      warning.rule ≠ .schemaTooDeep := by
    refine forall_warnings_ofJson_ne_schemaTooDeep_iff.mpr fun node hn => ?_
    have := h _ node hn
    omega
  have hlength : ∀ schema ∈ (Document.ofJson value).schemas, ∀ node ∈ Schema.nodeTypes schema.2,
      node.1.length ≤ options.maxSchemaDepth := by
    refine (@Document.forall_schemas_ofJson_iff (fun schema =>
      ∀ node ∈ Schema.nodeTypes schema, node.1.length ≤ options.maxSchemaDepth) nofun value).mpr ?_
    intro root hr
    simp only [Schema.nodeTypes, Schema.nodes_ofEntries, List.map_map, List.forall_mem_map,
      Prod.forall, Branching.mem_nodes_iff]
    intro location node hl
    have hn := (Json.HasSchemaNode.root hr).reaches hl
    rw [Nat.zero_add] at hn
    exact h _ node hn
  refine ⟨huncut, h, ?_, ?_⟩
  · intro schema hs location name error hn ht
    refine mem_errors_of_mem_typeErrors hs (mem_typeErrors_iff.mpr ?_)
    exact ⟨location, name, hn, hlength schema hs _ hn, ht⟩
  · intro higher hle
    have hd := shallower_checkDocument hle (.ofJson value) (.refl {})
    rw [validate, validate, hd.complete huncut]

theorem checkedInFull_of_nesting_le {value : Json} {options : Options}
    (h : value.nesting ≤ options.maxSchemaDepth + 4) : CheckedInFull value options := by
  refine checkedInFull_of_within fun depth node hn => ?_
  have := hn.depth_le
  omega

/-- What is read from a text is nested to a bounded depth, in either format. -/
theorem nesting_le_of_ofText {format : Option Format} {text : String} {document : Document}
    (h : Document.ofText format text = .ok document) :
    ∃ value, document = .ofJson value ∧ value.nesting ≤ 128 := by
  rw [Document.ofText] at h
  split at h
  · rw [Document.ofJsonText] at h
    split at h
    · rename_i value hp
      cases h
      exact ⟨value, rfl, (Json.nesting_le_of_parse? hp).trans (by decide)⟩
    · cases h
  · rw [Document.ofYamlText] at h
    split at h
    · rename_i value hp
      rw [Document.ofYaml] at h
      split at h
      · rename_i merged hm
        cases h
        refine ⟨merged.toJson, rfl, ?_⟩
        calc merged.toJson.nesting
          _ ≤ merged.nesting := merged.nesting_toJson_le
          _ ≤ value.nesting := Yaml.Value.nesting_merge_le hm
          _ ≤ 128 := Yaml.Value.nesting_le_of_parse? hp
      · cases h
    · cases h

/-! ## The bound is tight -/

/-- Nodes below each other, each one under `items` of the one before it. -/
def itemsWithin : Nat → Entries Json
  | 0 => []
  | depth + 1 => [("items", .object (itemsWithin depth))]

/-- A description with these nodes as its one component. -/
def nestedItems (depth : Nat) : Json :=
  .object [("components", .object [("schemas", .object [("List", .object (itemsWithin depth))])])]

theorem nesting_itemsWithin (depth : Nat) :
    (Json.object (itemsWithin depth)).nesting = depth + 1 := by
  induction depth with
  | zero => rfl
  | succ depth ih => simp [itemsWithin, Json.nesting, Json.nestingOfEntries] at ih ⊢; omega

theorem nesting_nestedItems (depth : Nat) : (nestedItems depth).nesting = depth + 4 := by
  have := nesting_itemsWithin depth
  simp only [nestedItems, Json.nesting, Json.nestingOfEntries] at this ⊢
  omega

theorem reaches_itemsWithin (depth : Nat) :
    Json.schemaTree.Reaches (itemsWithin depth) (List.replicate depth .items) [] := by
  induction depth with
  | zero => exact .here []
  | succ depth ih =>
      have hc : (.items, itemsWithin depth) ∈ Json.schemaTree.children (itemsWithin (depth + 1)) :=
        Json.mem_schemaChildren_iff.mpr (.items rfl)
      exact .down hc ih

theorem hasSchemaNode_nestedItems (depth : Nat) : (nestedItems depth).HasSchemaNode depth [] := by
  have hc : (nestedItems depth).HasComponent (itemsWithin depth) :=
    .intro rfl rfl List.mem_cons_self
  exact Json.hasSchemaNode_iff.mpr
    ⟨_, _, .component hc, reaches_itemsWithin depth, List.length_replicate⟩

theorem exists_schemaTooDeep_nestedItems (limit : Nat) :
    ∃ warning ∈ (validate (.ofJson (nestedItems (limit + 1))) ⟨limit⟩).warnings,
      warning.rule = .schemaTooDeep := by
  by_contra hn
  push Not at hn
  exact forall_warnings_ofJson_ne_schemaTooDeep_iff.mp hn [] (hasSchemaNode_nestedItems _)

/-- A value is checked in full if it is nested no more than four levels beyond the limit, and so
with the default limit everything that is read from a text. With one level more there are values
that are not. -/
theorem nesting_bounds_schemaDepth :
    (∀ (value : Json) (levels : Nat) (options : Options), value.nesting ≤ levels →
        levels ≤ options.maxSchemaDepth + 4 → CheckedInFull value options) ∧
      (∀ value : Json, value.nesting ≤ 128 → CheckedInFull value {}) ∧
      (∀ text value, Json.parse? text = some value → value.nesting ≤ 127) ∧
      (∀ text value, Yaml.Value.parse? text = some value → value.nesting ≤ 128) ∧
      (∀ format text document, Document.ofText format text = .ok document →
        ∃ value, document = .ofJson value ∧ CheckedInFull value {}) ∧
      ∀ limit, ∃ value : Json, value.nesting = limit + 5 ∧
        ∃ warning ∈ (validate (.ofJson value) ⟨limit⟩).warnings, warning.rule = .schemaTooDeep := by
  have hdefault {value : Json} (h : value.nesting ≤ 128) : CheckedInFull value {} :=
    checkedInFull_of_nesting_le (h.trans (by decide))
  refine ⟨fun value levels options hv hl => checkedInFull_of_nesting_le (hv.trans hl),
    fun value => hdefault, fun text value => Json.nesting_le_of_parse?,
    fun text value => Yaml.Value.nesting_le_of_parse?, ?_, ?_⟩
  · intro format text document h
    obtain ⟨value, rfl, hv⟩ := nesting_le_of_ofText h
    exact ⟨value, rfl, hdefault hv⟩
  · intro limit
    exact ⟨nestedItems (limit + 1), nesting_nestedItems _, exists_schemaTooDeep_nestedItems limit⟩

/-- Four levels beyond the limit are within the bound. -/
theorem nesting_bounds_schemaDepth_nestedItems :
    (nestedItems 2).nesting = 6 ∧ CheckedInFull (nestedItems 2) ⟨2⟩ ∧
      (nestedItems 124).nesting = 128 ∧ CheckedInFull (nestedItems 124) {} ∧
      Json.parse? "[[]]" = some (.array [.array []]) ∧ (Json.array [.array []]).nesting ≤ 127 ∧
      (∃ value, Yaml.Value.parse? "- []" = some value ∧ value.nesting ≤ 128) ∧
      ∃ document, Document.ofText (some .json) "[[]]" = .ok document ∧
        ∃ value, document = .ofJson value ∧ CheckedInFull value {} := by
  obtain ⟨hall, hdefault, hjson, hyaml, htext, -⟩ := nesting_bounds_schemaDepth
  have hn : (nestedItems 2).nesting = 6 := nesting_nestedItems 2
  have hd : (nestedItems 124).nesting = 128 := nesting_nestedItems 124
  have hj : Json.parse? "[[]]" = some (.array [.array []]) := by rfl
  have hs : (Yaml.Value.parse? "- []").isSome := by decide +kernel
  obtain ⟨value, hy⟩ := Option.isSome_iff_exists.mp hs
  have ho : Document.ofText (some .json) "[[]]" = .ok (.ofJson (.array [.array []])) := by
    change Document.ofJsonText "[[]]" = _
    rw [Document.ofJsonText, hj]
  exact ⟨hn, hall _ 6 ⟨2⟩ hn.le (by decide), hd, hdefault _ hd.le, hj, hjson _ _ hj,
    ⟨value, hy, hyaml _ _ hy⟩, _, ho, htext _ _ _ ho⟩

end ApiLint
