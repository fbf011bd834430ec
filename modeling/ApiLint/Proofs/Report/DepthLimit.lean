import ApiLint.Proofs.Schema.Walk
import ApiLint.Report

/-! Two validations of one document with different limits of depth. The lower limit loses errors
only below warnings that tell where schemas were cut off, and changes nothing else. -/

namespace ApiLint

open List

/-- What a lower limit of depth finds against a higher one. -/
structure Shallower (low high : Diagnostics) : Prop where
  errors : low.ofSeverity .error <+ high.ofSeverity .error
  warnings : (low.ofSeverity .warning).filter (·.rule ≠ .schemaTooDeep) =
    (high.ofSeverity .warning).filter (·.rule ≠ .schemaTooDeep)
  covered : ∀ error ∈ high.ofSeverity .error, error ∈ low.ofSeverity .error ∨
    ∃ warning ∈ low.ofSeverity .warning, warning.rule = .schemaTooDeep ∧
      warning.path.toList <+: error.path.toList
  complete : (∀ warning ∈ low.ofSeverity .warning, warning.rule ≠ .schemaTooDeep) → low = high

namespace Shallower

variable {low high : Diagnostics}

theorem refl (found : Diagnostics) : Shallower found found :=
  ⟨Sublist.refl _, rfl, fun _ h => .inl h, fun _ => rfl⟩

theorem append {more more' : Diagnostics} (h : Shallower low high) (h' : Shallower more more') :
    Shallower (low ++ more) (high ++ more') := by
  refine ⟨?_, ?_, ?_, ?_⟩
  · simp only [Diagnostics.ofSeverity_append]
    exact h.errors.append h'.errors
  · simp only [Diagnostics.ofSeverity_append, filter_append, h.warnings, h'.warnings]
  · intro error he
    simp only [Diagnostics.ofSeverity_append, mem_append] at he ⊢
    rcases he with he | he
    · rcases h.covered error he with hl | ⟨warning, hw, hc⟩
      · exact .inl (.inl hl)
      · exact .inr ⟨warning, .inl hw, hc⟩
    · rcases h'.covered error he with hl | ⟨warning, hw, hc⟩
      · exact .inl (.inr hl)
      · exact .inr ⟨warning, .inr hw, hc⟩
  · intro hn
    simp only [Diagnostics.ofSeverity_append, mem_append] at hn
    rw [h.complete fun warning hw => hn warning (.inl hw),
      h'.complete fun warning hw => hn warning (.inr hw)]

/-- A check that does not look at the limit finds the same on both sides. -/
theorem check {check : Diagnostics → Diagnostics} (h : Shallower low high)
    (ha : Appends check) : Shallower (check low) (check high) := by
  obtain ⟨findings, ha⟩ := ha
  rw [ha low, ha high]
  exact h.append (refl _)

end Shallower

/-! ## One walk -/

/-- A node can only be listed with all nodes on the way to it. -/
theorem Schema.nodeTypes_above {schema : Option Schema} {above below : Location}
    {name? : Option String} (h : (above ++ below, name?) ∈ nodeTypes schema) :
    ∃ name?, (above, name?) ∈ nodeTypes schema := by
  cases schema with
  | none => cases h
  | some schema =>
      obtain ⟨⟨location, node⟩, hn, he⟩ := mem_map.mp h
      obtain ⟨rfl, -⟩ := Prod.mk.inj he
      obtain ⟨middle, ha, -⟩ := (Branching.mem_nodes_iff.mp hn).split
      exact ⟨middle.typeName?, mem_map.mpr ⟨_, Branching.mem_nodes_iff.mpr ha, rfl⟩⟩

/-- Every node beyond the limit lies at or below one that the walk warns about. -/
theorem exists_depthWarning_above {limit : Nat} {schema : Option Schema} {location : Location}
    {name? : Option String} (hn : (location, name?) ∈ Schema.nodeTypes schema)
    (hl : limit < location.length) (base : String) :
    ∃ warning ∈ depthWarnings limit base (Schema.nodeTypes schema),
      warning.rule = .schemaTooDeep ∧ warning.path.toList <+: (location.path base).toList := by
  obtain ⟨above, below, rfl, ha⟩ :
      ∃ above below : Location, above ++ below = location ∧ above.length = limit + 1 :=
    ⟨location.take (limit + 1), location.drop (limit + 1), take_append_drop _ _, by
      rw [length_take]
      omega⟩
  obtain ⟨name?, hc⟩ := Schema.nodeTypes_above hn
  exact ⟨depthWarning limit (above.path base),
    mem_depthWarnings_iff.mpr ⟨above, name?, hc, ha, rfl⟩, rfl,
    Location.path_isPrefix_path_append base above below⟩

theorem typeErrors_sublist {low high : Nat} (h : low ≤ high) (base : String)
    (nodes : List (Location × Option String)) :
    typeErrors low base nodes <+ typeErrors high base nodes := by
  apply Sublist.filterMap
  apply monotone_filter_right
  intro node hl
  simp only [decide_eq_true_eq] at hl ⊢
  omega

/-- An error that only the higher limit finds lies below a node at the cut. -/
theorem typeErrors_covered {low high : Nat} {base : String} {schema : Option Schema}
    {error : Diagnostic} (he : error ∈ typeErrors high base (Schema.nodeTypes schema)) :
    error ∈ typeErrors low base (Schema.nodeTypes schema) ∨
      ∃ warning ∈ depthWarnings low base (Schema.nodeTypes schema),
        warning.rule = .schemaTooDeep ∧ warning.path.toList <+: error.path.toList := by
  obtain ⟨location, name, hn, -, hf⟩ := mem_typeErrors_iff.mp he
  by_cases hl : location.length ≤ low
  · exact .inl (mem_typeErrors_iff.mpr ⟨location, name, hn, hl, hf⟩)
  · obtain ⟨warning, hw, hr, hp⟩ := exists_depthWarning_above hn (Nat.lt_of_not_le hl) base
    refine .inr ⟨warning, hw, hr, ?_⟩
    rw [(typeError?_spec hf).2, String.toList_append]
    exact hp.trans (prefix_append _ _)

/-- Where nothing is cut off, the limit makes no difference. -/
theorem findings_eq_of_depthWarnings_eq_nil {low high : Nat} (h : low ≤ high) {base : String}
    {schema : Option Schema} (hd : depthWarnings low base (Schema.nodeTypes schema) = []) :
    ((Schema.nodeTypes schema).filterMap fun node => findingAt? low base node.1 node.2) =
      (Schema.nodeTypes schema).filterMap fun node => findingAt? high base node.1 node.2 := by
  refine filterMap_congr fun node hn => ?_
  have hl : node.1.length ≤ low := by
    by_contra hl
    obtain ⟨warning, hw, -⟩ := exists_depthWarning_above hn (Nat.lt_of_not_le hl) base
    rw [hd] at hw
    exact not_mem_nil hw
  rw [findingAt?_of_le hl, findingAt?_of_le (hl.trans h)]

theorem filter_depthWarnings (limit : Nat) (base : String)
    (nodes : List (Location × Option String)) :
    (depthWarnings limit base nodes).filter (·.rule ≠ .schemaTooDeep) = [] := by
  apply filter_eq_nil_iff.mpr
  intro warning hw
  obtain ⟨location, name?, -, -, rfl⟩ := mem_depthWarnings_iff.mp hw
  simp [depthWarning]

theorem shallower_walkSchema {low high : Options} (h : low.maxSchemaDepth ≤ high.maxSchemaDepth)
    (schema : Option Schema) (base : String) {found found' : Diagnostics}
    (hf : Shallower found found') :
    Shallower (walkSchema low schema base found) (walkSchema high schema base found') := by
  rw [walkSchema_eq_append, walkSchema_eq_append]
  refine hf.append ⟨?_, ?_, ?_, ?_⟩
  · simp only [Diagnostics.ofSeverity_ofList, filter_error_findings]
    exact typeErrors_sublist h base _
  · simp only [Diagnostics.ofSeverity_ofList, filter_warning_findings, filter_depthWarnings]
  · simp only [Diagnostics.ofSeverity_ofList, filter_error_findings, filter_warning_findings]
    intro error he
    exact typeErrors_covered he
  · simp only [Diagnostics.ofSeverity_ofList, filter_warning_findings]
    intro hn
    have hd : depthWarnings low.maxSchemaDepth base (Schema.nodeTypes schema) = [] := by
      rw [← filter_depthWarnings low.maxSchemaDepth base (Schema.nodeTypes schema), eq_comm,
        filter_eq_self]
      simpa using hn
    rw [findings_eq_of_depthWarnings_eq_nil h hd]

/-! ## All checks -/

section

variable {low high : Options} {found found' : Diagnostics}

theorem shallower_checkComponents (h : low.maxSchemaDepth ≤ high.maxSchemaDepth)
    (document : Document) (hf : Shallower found found') :
    Shallower (checkComponents document low found) (checkComponents document high found') :=
  List.foldl_rel hf fun _ _ _ _ hc => shallower_walkSchema h _ _ hc

theorem shallower_checkResponse (h : low.maxSchemaDepth ≤ high.maxSchemaDepth)
    (context code : String) (response : Response) (hf : Shallower found found') :
    Shallower (checkResponse low context code response found)
      (checkResponse high context code response found') :=
  List.foldl_rel hf fun _ _ _ _ hc => shallower_walkSchema h _ _ hc

theorem shallower_checkResponses (h : low.maxSchemaDepth ≤ high.maxSchemaDepth)
    (label context : String) (responses : Option (Entries Response))
    (hf : Shallower found found') :
    Shallower (checkResponses low label context responses found)
      (checkResponses high label context responses found') := by
  cases responses with
  | none =>
      simp only [checkResponses]
      exact hf.check (.push _ _ _)
  | some responses =>
      have hr : Shallower
          (responses.foldl (fun found entry =>
            checkResponse low context entry.1 entry.2 found) found)
          (responses.foldl (fun found entry =>
            checkResponse high context entry.1 entry.2 found) found') :=
        List.foldl_rel hf fun _ _ _ _ hc => shallower_checkResponse h _ _ _ hc
      exact hr.check (.ite _ .id (.push _ _ _))

theorem shallower_checkOperation (h : low.maxSchemaDepth ≤ high.maxSchemaDepth)
    (path key : String) (operation : Operation) (hf : Shallower found found') :
    Shallower (checkOperation low path key operation found)
      (checkOperation high path key operation found') := by
  have hr := shallower_checkResponses h (operation.method.label ++ " " ++ path)
    ("paths." ++ path ++ "." ++ key) operation.responses hf
  exact (hr.check (.ite _ (.push _ _ _) .id)).check (.ite _ (.push _ _ _) .id)

theorem shallower_checkPathItem (h : low.maxSchemaDepth ≤ high.maxSchemaDepth) (path : String)
    (item : PathItem) (hf : Shallower found found') :
    Shallower (checkPathItem low path item found) (checkPathItem high path item found') :=
  List.foldl_rel (hf.check (.ite _ .id (.push _ _ _))) fun _ _ _ _ hc =>
    shallower_checkOperation h _ _ _ hc

theorem shallower_checkPaths (h : low.maxSchemaDepth ≤ high.maxSchemaDepth) (document : Document)
    (hf : Shallower found found') :
    Shallower (checkPaths document low found) (checkPaths document high found') :=
  List.foldl_rel hf fun _ _ _ _ hc => shallower_checkPathItem h _ _ hc

theorem shallower_checkDocument (h : low.maxSchemaDepth ≤ high.maxSchemaDepth)
    (document : Document) (hf : Shallower found found') :
    Shallower (checkDocument document low found) (checkDocument document high found') := by
  have hc := shallower_checkComponents h document (hf.check (appends_checkRoot document))
  exact (shallower_checkPaths h document hc).check (appends_checkTags document)

end

/-! ## Reports -/

/-- A description with one component, whose items have the given type. -/
def nestedDocument (type : String) : Document :=
  .ofJson (.object [
    ("openapi", .string "3.0.0"),
    ("info", .object [("title", .string "Nested"), ("version", .string "1")]),
    ("paths", .object []),
    ("components", .object [("schemas", .object [("List", .object [
      ("type", .string "array"),
      ("items", .object [("type", .string type)])])])])])

/-- No error gets lost silently: one that only the higher limit finds has a path that starts with
the path of a warning about depth. Without such a warning the limit makes no difference. -/
theorem validate_covers {low high : Options} (h : low.maxSchemaDepth ≤ high.maxSchemaDepth)
    (document : Document) :
    (∀ error ∈ (validate document high).errors, error ∈ (validate document low).errors ∨
        ∃ warning ∈ (validate document low).warnings, warning.rule = .schemaTooDeep ∧
          warning.path.toList <+: error.path.toList) ∧
      ((∀ warning ∈ (validate document low).warnings, warning.rule ≠ .schemaTooDeep) →
        validate document low = validate document high) := by
  have hd := shallower_checkDocument h document (.refl {})
  refine ⟨hd.covered, fun hn => ?_⟩
  rw [validate, validate, hd.complete hn]

theorem validate_covers_nestedDocument :
    (∃ error ∈ (validate (nestedDocument "null") ⟨1⟩).errors,
      error ∉ (validate (nestedDocument "null") ⟨0⟩).errors ∧
        ∃ warning ∈ (validate (nestedDocument "null") ⟨0⟩).warnings,
          warning.rule = .schemaTooDeep ∧ warning.path.toList <+: error.path.toList) ∧
      validate (nestedDocument "null") ⟨1⟩ = validate (nestedDocument "null") ⟨2⟩ := by
  have h : (⟨0⟩ : Options).maxSchemaDepth ≤ (⟨1⟩ : Options).maxSchemaDepth := by decide
  have h' : (⟨1⟩ : Options).maxSchemaDepth ≤ (⟨2⟩ : Options).maxSchemaDepth := by decide
  constructor
  · obtain ⟨error, he, hn⟩ : ∃ error ∈ (validate (nestedDocument "null") ⟨1⟩).errors,
        error ∉ (validate (nestedDocument "null") ⟨0⟩).errors := by decide
    exact ⟨error, he, hn, ((validate_covers h _).1 error he).resolve_left hn⟩
  · exact (validate_covers h' _).2 (by decide)

/-- A higher limit only adds errors. -/
theorem validate_mono {low high : Options} (h : low.maxSchemaDepth ≤ high.maxSchemaDepth)
    (document : Document) :
    (validate document low).errors <+ (validate document high).errors ∧
      (validate document low).warnings.filter (·.rule ≠ .schemaTooDeep) =
        (validate document high).warnings.filter (·.rule ≠ .schemaTooDeep) ∧
      (validate document low).stats = (validate document high).stats ∧
      ((validate document high).isValid → (validate document low).isValid) := by
  have hd := shallower_checkDocument h document (.refl {})
  refine ⟨hd.errors, hd.warnings, rfl, fun hv => ?_⟩
  have he : (validate document high).errors = [] := List.isEmpty_iff.mp hv
  exact List.isEmpty_iff.mpr (sublist_nil.mp (he ▸ hd.errors))

theorem validate_mono_nestedDocument :
    (validate (nestedDocument "null") ⟨0⟩).errors <+ (validate (nestedDocument "null") ⟨1⟩).errors ∧
      (validate (nestedDocument "null") ⟨0⟩).errors ≠
        (validate (nestedDocument "null") ⟨1⟩).errors ∧
      (validate (nestedDocument "string") ⟨0⟩).isValid := by
  have h : (⟨0⟩ : Options).maxSchemaDepth ≤ (⟨1⟩ : Options).maxSchemaDepth := by decide
  have hs := validate_mono h (nestedDocument "string")
  exact ⟨(validate_mono h _).1, by decide, hs.2.2.2 (by decide)⟩

end ApiLint
