import ApiLint.Proofs.Report.Rules
import ApiLint.Proofs.Report.Warnings

/-! The findings about schemas in a report are those of one walk for each schema: of the components
first, and then of the bodies of all responses. -/

namespace ApiLint

/-- The schemas of a response, each with the path at which its walk starts. -/
def Response.schemas (context code : String) (response : Response) :
    List (String × Option Schema) :=
  response.content.map fun (name, media) =>
    (context ++ ".responses." ++ code ++ ".content." ++ name ++ ".schema", media.schema)

def Operation.schemas (path key : String) (operation : Operation) :
    List (String × Option Schema) :=
  (operation.responses.getD []).flatMap fun (code, response) =>
    response.schemas ("paths." ++ path ++ "." ++ key) code

/-- All schemas, each with the path at which its walk starts. -/
def Document.schemas (document : Document) : List (String × Option Schema) :=
  (document.componentSchemas.map fun (name, schema) => ("components.schemas." ++ name, schema)) ++
    document.placedOperations.flatMap fun (path, key, operation) => operation.schemas path key

/-- What the walk of a schema finds of a rule. -/
def schemaFindings (options : Options) (rule : Rule) (schema : String × Option Schema) :
    List Diagnostic :=
  (walkSchema options schema.2 schema.1 {}).ofRule rule

open Diagnostics

theorem ofRule_ite_push_of_subject_ne {rule other : Rule} (h : rule.subject ≠ other.subject)
    (condition : Prop) [Decidable condition] (found : Diagnostics) (path message : String) :
    (if condition then found.push other path message else found).ofRule rule =
      found.ofRule rule := by
  split
  · exact ofRule_push_of_subject_ne h _ _ _
  · rfl

section

variable {rule : Rule} (options : Options) (found : Diagnostics)

theorem ofRule_walkSchema_eq_append (schema : Option Schema) (path : String) :
    (walkSchema options schema path found).ofRule rule =
      found.ofRule rule ++ schemaFindings options rule (path, schema) :=
  (appends_walkSchema options schema path).ofRule found rule

theorem ofRule_checkComponents_eq_append (document : Document) :
    (checkComponents document options found).ofRule rule =
      found.ofRule rule ++ (document.componentSchemas.map fun (name, schema) =>
        ("components.schemas." ++ name, schema)).flatMap (schemaFindings options rule) := by
  rw [checkComponents, ofRule_foldl fun entry found =>
    ofRule_walkSchema_eq_append options found entry.2 ("components.schemas." ++ entry.1)]
  simp only [List.flatMap_map]

theorem ofRule_checkResponse_eq_append (context code : String) (response : Response) :
    (checkResponse options context code response found).ofRule rule =
      found.ofRule rule ++
        (response.schemas context code).flatMap (schemaFindings options rule) := by
  rw [checkResponse, ofRule_foldl fun entry found =>
    ofRule_walkSchema_eq_append options found entry.2.schema _]
  simp only [Response.schemas, List.flatMap_map]

/-! Findings about anything else are not of the rule. -/

variable (h : rule.subject = .schema)

include h in
theorem ofRule_checkResponses_of_schema (label context : String)
    (responses : Option (Entries Response)) :
    (checkResponses options label context responses found).ofRule rule =
      found.ofRule rule ++ ((responses.getD []).flatMap fun entry =>
        entry.2.schemas context entry.1).flatMap (schemaFindings options rule) := by
  have hm : rule.subject ≠ Rule.missingResponses.subject := h ▸ by decide
  have hs : rule.subject ≠ Rule.noSuccessResponse.subject := h ▸ by decide
  unfold checkResponses
  cases responses with
  | none =>
      rw [Option.getD_none, List.flatMap_nil, List.flatMap_nil, List.append_nil]
      exact ofRule_push_of_subject_ne hm _ _ _
  | some responses =>
      have hr := @ofRule_foldl _ rule _ _ (fun entry found =>
        ofRule_checkResponse_eq_append options found context entry.1 entry.2) responses found
      rw [Option.getD_some, List.flatMap_assoc, ← hr]
      dsimp only
      split
      · rfl
      · exact ofRule_push_of_subject_ne hs _ _ _

include h in
theorem ofRule_checkOperation_of_schema (path key : String) (operation : Operation) :
    (checkOperation options path key operation found).ofRule rule =
      found.ofRule rule ++
        (operation.schemas path key).flatMap (schemaFindings options rule) := by
  have hd : rule.subject ≠ Rule.missingDocumentation.subject := h ▸ by decide
  have ht : rule.subject ≠ Rule.missingOperationTags.subject := h ▸ by decide
  simp only [checkOperation]
  rw [ofRule_ite_push_of_subject_ne ht, ofRule_ite_push_of_subject_ne hd,
    ofRule_checkResponses_of_schema options found h, Operation.schemas]

include h in
theorem ofRule_checkPathItem_of_schema (path : String) (item : PathItem) :
    (checkPathItem options path item found).ofRule rule =
      found.ofRule rule ++ item.operations.flatMap fun (key, operation) =>
        (operation.schemas path key).flatMap (schemaFindings options rule) := by
  have hp : rule.subject ≠ Rule.pathMissingSlash.subject := h ▸ by decide
  simp only [checkPathItem]
  rw [ofRule_foldl fun entry found =>
    ofRule_checkOperation_of_schema options found h path entry.1 entry.2]
  congr 1
  split
  · rfl
  · exact ofRule_push_of_subject_ne hp _ _ _

include h in
theorem ofRule_checkPaths_of_schema (document : Document) :
    (checkPaths document options found).ofRule rule =
      found.ofRule rule ++ (document.placedOperations.flatMap fun (path, key, operation) =>
        operation.schemas path key).flatMap (schemaFindings options rule) := by
  rw [checkPaths, ofRule_foldl fun entry found =>
    ofRule_checkPathItem_of_schema options found h entry.1 entry.2]
  simp only [Document.placedOperations, List.flatMap_assoc, List.flatMap_map]

include h in
theorem ofRule_checkDocument_of_schema (document : Document) :
    (checkDocument document options {}).ofRule rule =
      document.schemas.flatMap (schemaFindings options rule) := by
  have hne {subject : Subject} (hs : subject ≠ .schema) : rule.subject ≠ subject :=
    fun he => hs (he ▸ h)
  rw [checkDocument, ofRule_checkTags _ (hne (by decide)), ofRule_checkPaths_of_schema _ _ h,
    ofRule_checkComponents_eq_append, checkRoot, ofRule_checkPathsField _ (hne (by decide)),
    ofRule_checkInfo _ (hne (by decide)), ofRule_checkVersion _ (hne (by decide)), ofRule_empty,
    List.nil_append, Document.schemas, List.flatMap_append]

end

/-! ## Nodes within the limit -/

theorem subject_of_typeError? {path name : String} {error : Diagnostic}
    (h : typeError? path name = some error) : error.rule.subject = .schema := by
  unfold typeError? at h
  split at h
  · cases h
  · split at h
    · cases h
      rfl
    · cases h
      rfl

/-- The report has the type errors of every schema. -/
theorem mem_errors_of_mem_typeErrors {document : Document} {options : Options}
    {schema : String × Option Schema} {error : Diagnostic} (hs : schema ∈ document.schemas)
    (he : error ∈ typeErrors options.maxSchemaDepth schema.1 (Schema.nodeTypes schema.2)) :
    error ∈ (validate document options).errors := by
  obtain ⟨location, name, -, -, ht⟩ := mem_typeErrors_iff.mp he
  have hseverity : error.rule.severity = .error := (typeError?_spec ht).1
  have hw : error ∈ schemaFindings options error.rule schema := by
    rw [schemaFindings, ofRule, hseverity, errors_walkSchema, ofSeverity_empty, List.nil_append]
    exact List.mem_filter.mpr ⟨he, decide_eq_true rfl⟩
  have hd : error ∈ (checkDocument document options {}).ofRule error.rule := by
    rw [ofRule_checkDocument_of_schema options (subject_of_typeError? ht)]
    exact List.mem_flatMap.mpr ⟨schema, hs, hw⟩
  rw [ofRule, hseverity] at hd
  exact List.mem_of_mem_filter hd

/-! ## Nodes beyond the limit -/

theorem schemaFindings_schemaTooDeep (options : Options) (schema : String × Option Schema) :
    schemaFindings options .schemaTooDeep schema =
      depthWarnings options.maxSchemaDepth schema.1 (Schema.nodeTypes schema.2) := by
  change ((walkSchema options schema.2 schema.1 {}).ofSeverity .warning).filter _ = _
  rw [warnings_walkSchema, ofSeverity_empty, List.nil_append, List.filter_eq_self]
  intro warning hw
  obtain ⟨location, name?, -, -, rfl⟩ := mem_depthWarnings_iff.mp hw
  rfl

/-- No schema is cut off exactly if all nodes of all schemas are within the limit. -/
theorem forall_warnings_ne_schemaTooDeep_iff {document : Document} {options : Options} :
    (∀ warning ∈ (validate document options).warnings, warning.rule ≠ .schemaTooDeep) ↔
      ∀ schema ∈ document.schemas, Schema.Within options.maxSchemaDepth schema.2 := by
  have hw : (∀ warning ∈ (validate document options).warnings, warning.rule ≠ .schemaTooDeep) ↔
      (checkDocument document options {}).ofRule .schemaTooDeep = [] := by
    simp only [ofRule, List.filter_eq_nil_iff, decide_eq_true_eq]
    rfl
  rw [hw, ofRule_checkDocument_of_schema options rfl, List.flatMap_eq_nil_iff]
  simp only [schemaFindings_schemaTooDeep, depthWarnings, List.map_eq_nil_iff,
    List.filter_eq_nil_iff, decide_eq_true_eq]
  rfl

theorem Document.forall_schemas_ofJson_iff {holds : Option Schema → Prop} (hn : holds none)
    {value : Json} :
    (∀ schema ∈ (ofJson value).schemas, holds schema.2) ↔
      ∀ root, value.HasSchema root → holds (some (.ofEntries root)) := by
  have hbody {method : HttpMethod} {entry : Json} {path key : String} :
      (∀ schema ∈ (Operation.ofJson method entry).schemas path key, holds schema.2) ↔
        ∀ root, entry.HasBody root → holds (some (.ofEntries root)) := by
    rw [← @Operation.forall_bodies_ofJson_iff _ hn method]
    simp only [Operation.schemas, Response.schemas, List.forall_mem_flatMap, List.forall_mem_map]
  simp only [schemas, List.forall_mem_append, List.forall_mem_map, List.forall_mem_flatMap]
  rw [forall_components_ofJson_iff hn]
  constructor
  · intro h root hr
    obtain ⟨hc, ho⟩ := h
    cases hr with
    | component hr => exact hc root hr
    | body hp hb =>
        have hm := mem_placedOperations_ofJson_iff.mpr ⟨_, _, hp, rfl⟩
        exact hbody.mp (ho _ hm) root hb
  · intro h
    refine ⟨fun root hr => h root (.component hr), ?_⟩
    rintro ⟨path, key, operation⟩ hm
    obtain ⟨method, entry, hp, rfl⟩ := mem_placedOperations_ofJson_iff.mp hm
    exact hbody.mpr fun root hb => h root (.body hp hb)

/-- A schema is cut off exactly if a node stands one step beyond the limit. -/
theorem forall_warnings_ofJson_ne_schemaTooDeep_iff {value : Json} {options : Options} :
    (∀ warning ∈ (validate (.ofJson value) options).warnings, warning.rule ≠ .schemaTooDeep) ↔
      ∀ node, ¬value.HasSchemaNode (options.maxSchemaDepth + 1) node := by
  rw [forall_warnings_ne_schemaTooDeep_iff, Json.forall_not_hasSchemaNode_iff]
  exact Document.forall_schemas_ofJson_iff (Schema.within_none _)

end ApiLint
