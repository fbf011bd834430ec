import ApiLint.Proofs.Document.Reading
import ApiLint.Proofs.Schema.Walk
import ApiLint.Report

/-! A description is valid exactly if the value that it is read from meets the rules of severity
error. Each check is told by what it demands, and the rules are what all checks demand together. -/

namespace ApiLint

namespace Diagnostics

/-- No errors were found. -/
def Clean (found : Diagnostics) : Prop := found.ofSeverity .error = []

theorem clean_push_iff {found : Diagnostics} {rule : Rule} {path message : String} :
    (found.push rule path message).Clean ↔ found.Clean ∧ rule.severity = .warning := by
  rw [Clean, ofSeverity_push, List.append_eq_nil_iff, Clean]
  cases h : rule.severity <;> simp [Diagnostic.severity, h]

end Diagnostics

open Diagnostics

/-! ## What keeps the checks from finding errors -/

theorem clean_checkVersion_iff {document : Document} {found : Diagnostics} :
    (checkVersion document found).Clean ↔ found.Clean ∧
      ∃ version, document.openapi = some version ∧ isSupportedVersion version := by
  unfold checkVersion
  cases document.openapi with
  | none => simp [clean_push_iff, Rule.severity]
  | some version =>
      by_cases hv : isSupportedVersion version <;> simp [hv, clean_push_iff, Rule.severity]

theorem clean_checkInfo_iff {document : Document} {found : Diagnostics} :
    (checkInfo document found).Clean ↔ found.Clean ∧
      ∃ info, document.info = .present info ∧ info.title.isSome ∧ info.version.isSome := by
  unfold checkInfo
  cases document.info with
  | missing => simp [clean_push_iff, Rule.severity]
  | notObject _ => simp [clean_push_iff, Rule.severity]
  | present info =>
      by_cases ht : info.title.isSome <;> by_cases hv : info.version.isSome <;>
        simp [ht, hv, clean_push_iff, Rule.severity]

theorem clean_checkPathsField_iff {document : Document} {found : Diagnostics} :
    (checkPathsField document found).Clean ↔ found.Clean ∧
      ∃ paths, document.paths = .present paths := by
  unfold checkPathsField
  cases document.paths with
  | missing => simp [clean_push_iff, Rule.severity]
  | notObject _ => simp [clean_push_iff, Rule.severity]
  | present paths => by_cases hp : paths.isEmpty <;> simp [hp, clean_push_iff, Rule.severity]

theorem clean_checkTags_iff {document : Document} {found : Diagnostics} :
    (checkTags document found).Clean ↔ found.Clean := by
  have each (rule : Rule) (h : rule.severity = .warning) (tags : List String)
      (message : String → String) (found : Diagnostics) :
      (tags.foldl (fun found tag => found.push rule "tags" (message tag)) found).Clean ↔
        found.Clean := by
    rw [foldl_iff Clean fun tag found => clean_push_iff]
    simp [h]
  exact (each .undeclaredTag rfl _ _ _).trans (each .unusedTag rfl _ _ _)

/-- The types of all nodes within the limit are allowed. -/
def Schema.WellTyped (limit : Nat) (schema : Option Schema) : Prop :=
  ∀ location name, (location, some name) ∈ nodeTypes schema → location.length ≤ limit →
    name ∈ allowedTypes

theorem typeErrors_eq_nil_iff {limit : Nat} {base : String} {schema : Option Schema} :
    typeErrors limit base (Schema.nodeTypes schema) = [] ↔ Schema.WellTyped limit schema := by
  rw [List.eq_nil_iff_forall_not_mem]
  constructor
  · intro h location name hn hl
    have none : typeError? (location.path base ++ ".type") name = none :=
      Option.eq_none_iff_forall_ne_some.mpr fun error he =>
        h error (mem_typeErrors_iff.mpr ⟨location, name, hn, hl, he⟩)
    exact typeError?_eq_none_iff.mp none
  · intro h error he
    obtain ⟨location, name, hn, hl, he⟩ := mem_typeErrors_iff.mp he
    rw [typeError?_eq_none_iff.mpr (h location name hn hl)] at he
    cases he

section

variable (options : Options) (found : Diagnostics)

theorem clean_walkSchema_iff (schema : Option Schema) (base : String) :
    (walkSchema options schema base found).Clean ↔
      found.Clean ∧ Schema.WellTyped options.maxSchemaDepth schema := by
  rw [Clean, errors_walkSchema, List.append_eq_nil_iff, typeErrors_eq_nil_iff, Clean]

theorem clean_checkComponents_iff (document : Document) :
    (checkComponents document options found).Clean ↔ found.Clean ∧
      ∀ entry ∈ document.componentSchemas, Schema.WellTyped options.maxSchemaDepth entry.2 :=
  foldl_iff Clean (fun entry found => clean_walkSchema_iff options found entry.2 _) _ found

/-- The types in all bodies of a response are allowed. -/
def Response.WellTyped (limit : Nat) (response : Response) : Prop :=
  ∀ entry ∈ response.content, Schema.WellTyped limit entry.2.schema

theorem clean_checkResponse_iff (context code : String) (response : Response) :
    (checkResponse options context code response found).Clean ↔
      found.Clean ∧ response.WellTyped options.maxSchemaDepth :=
  foldl_iff Clean (fun entry found => clean_walkSchema_iff options found entry.2.schema _) _ found

/-- An operation has responses, and the types in them are allowed. -/
def Operation.Answers (limit : Nat) (operation : Operation) : Prop :=
  ∃ responses, operation.responses = some responses ∧
    ∀ entry ∈ responses, entry.2.WellTyped limit

theorem clean_checkResponses_iff (label context : String) (operation : Operation) :
    (checkResponses options label context operation.responses found).Clean ↔
      found.Clean ∧ operation.Answers options.maxSchemaDepth := by
  unfold checkResponses Operation.Answers
  cases operation.responses with
  | none => simp [clean_push_iff, Rule.severity]
  | some responses =>
      have hr := foldl_iff Clean
        (fun entry found => clean_checkResponse_iff options found context entry.1 entry.2)
        responses found
      simp only [Option.some.injEq, exists_eq_left']
      rw [← hr]
      split
      · rfl
      · simp only [clean_push_iff, Rule.severity, and_true]

theorem clean_checkOperation_iff (path key : String) (operation : Operation) :
    (checkOperation options path key operation found).Clean ↔
      found.Clean ∧ operation.Answers options.maxSchemaDepth := by
  simp only [checkOperation]
  rw [← clean_checkResponses_iff options found (operation.method.label ++ " " ++ path)
    ("paths." ++ path ++ "." ++ key)]
  split <;> split <;> simp only [clean_push_iff, Rule.severity, and_true]

theorem clean_checkPathItem_iff (path : String) (item : PathItem) :
    (checkPathItem options path item found).Clean ↔ found.Clean ∧
      path.toList.head? = some '/' ∧
        ∀ entry ∈ item.operations, entry.2.Answers options.maxSchemaDepth := by
  simp only [checkPathItem]
  rw [foldl_iff Clean fun entry found =>
    clean_checkOperation_iff options found path entry.1 entry.2, ← and_assoc]
  refine and_congr_left fun _ => ?_
  split <;> simp [clean_push_iff, Rule.severity, *]

theorem clean_checkPaths_iff (document : Document) :
    (checkPaths document options found).Clean ↔ found.Clean ∧
      ∀ entry ∈ document.pathItems, entry.1.toList.head? = some '/' ∧
        ∀ operation ∈ entry.2.operations, operation.2.Answers options.maxSchemaDepth :=
  foldl_iff Clean (fun entry found => clean_checkPathItem_iff options found entry.1 entry.2) _ found

theorem clean_checkDocument_iff (document : Document) :
    (checkDocument document options found).Clean ↔ found.Clean ∧
      (∃ version, document.openapi = some version ∧ isSupportedVersion version) ∧
      (∃ info, document.info = .present info ∧ info.title.isSome ∧ info.version.isSome) ∧
      (∃ paths, document.paths = .present paths) ∧
      (∀ entry ∈ document.componentSchemas, Schema.WellTyped options.maxSchemaDepth entry.2) ∧
      ∀ entry ∈ document.pathItems, entry.1.toList.head? = some '/' ∧
        ∀ operation ∈ entry.2.operations, operation.2.Answers options.maxSchemaDepth := by
  rw [checkDocument, clean_checkTags_iff, clean_checkPaths_iff, clean_checkComponents_iff,
    checkRoot, clean_checkPathsField_iff, clean_checkInfo_iff, clean_checkVersion_iff]
  simp only [and_assoc]

end

/-! ## The rules for a value -/

namespace Json

/-- From a schema on, the types of all nodes within the limit are allowed. -/
def TypesAllowed (limit : Nat) (root : Entries Json) : Prop :=
  ∀ location node, schemaTree.Reaches root location node → location.length ≤ limit →
    ∀ name, node.lookup "type" = some (.string name) → name ∈ allowedTypes

/-- The rules of severity error. -/
structure MeetsErrorRules (limit : Nat) (value : Json) : Prop where
  openapi : ∃ version text, value.get? "openapi" = some version ∧ version.HasText text ∧
    isSupportedVersion text
  info : ∃ info title version, value.get? "info" = some (.object info) ∧
    info.lookup "title" = some title ∧ title.Filled ∧
    info.lookup "version" = some version ∧ version.Filled
  paths : ∃ paths, value.get? "paths" = some (.object paths) ∧
    ∀ path entry, (path, entry) ∈ paths → ∃ rest, path = "/" ++ rest
  responses : ∀ path key method operation, value.HasOperation path key method operation →
    ∃ responses, operation.get? "responses" = some (.object responses)
  types : ∀ depth node, value.HasSchemaNode depth node → depth ≤ limit →
    ∀ name, node.lookup "type" = some (.string name) → name ∈ allowedTypes

theorem forall_hasSchemaNode_iff {limit : Nat} {value : Json} :
    (∀ depth node, value.HasSchemaNode depth node → depth ≤ limit →
      ∀ name, node.lookup "type" = some (.string name) → name ∈ allowedTypes) ↔
      ∀ root, value.HasSchema root → TypesAllowed limit root := by
  constructor
  · intro h root hr location node hl
    exact h _ node (hasSchemaNode_iff.mpr ⟨root, location, hr, hl, rfl⟩)
  · intro h depth node hn
    obtain ⟨root, location, hr, hl, rfl⟩ := hasSchemaNode_iff.mp hn
    exact h root hr location node hl

end Json

theorem Schema.wellTyped_none (limit : Nat) : WellTyped limit none := by
  simp [WellTyped, nodeTypes]

theorem Schema.wellTyped_ofEntries_iff {limit : Nat} {root : Entries Json} :
    WellTyped limit (some (ofEntries root)) ↔ Json.TypesAllowed limit root := by
  have he : some (ofEntries root) = ofJson? (.object root) := (ofJson?_eq_map (.object root)).symm
  rw [WellTyped, he, nodeTypes_ofJson?]
  constructor
  · intro h location node hr hl name ht
    exact h location name (Json.mem_nodeTypes_iff.mpr ⟨root, node, rfl, hr, ht⟩) hl
  · intro h location name hn hl
    obtain ⟨_, node, ⟨⟩, hr, ht⟩ := Json.mem_nodeTypes_iff.mp hn
    exact h location node hr hl name ht

theorem Operation.answers_ofJson_iff {limit : Nat} {method : HttpMethod} {value : Json} :
    (Operation.ofJson method value).Answers limit ↔
      (∃ responses, value.get? "responses" = some (.object responses)) ∧
        ∀ root, value.HasBody root → Json.TypesAllowed limit root := by
  have hp : (∃ responses, value.get? "responses" = some (.object responses)) ↔
      ∃ responses, (ofJson method value).responses = some responses := by
    simp [responses_ofJson, Json.entriesUnder?_eq_some_iff]
  simp only [hp, ← Schema.wellTyped_ofEntries_iff]
  rw [← forall_bodies_ofJson_iff (Schema.wellTyped_none limit), Answers]
  cases (ofJson method value).responses <;> simp [Response.WellTyped]

theorem Document.info_ofJson_iff {value : Json} :
    (∃ info, (ofJson value).info = .present info ∧ info.title.isSome ∧ info.version.isSome) ↔
      ∃ info title version, value.get? "info" = some (.object info) ∧
        info.lookup "title" = some title ∧ title.Filled ∧
        info.lookup "version" = some version ∧ version.Filled := by
  simp only [ofJson, Field.ofJson_eq_present_iff]
  constructor
  · intro h
    obtain ⟨_, ⟨info, hi, rfl⟩, ht, hv⟩ := h
    obtain ⟨title, ht, htf⟩ := Json.isSome_bind_filledText?_iff.mp ht
    obtain ⟨version, hv, hvf⟩ := Json.isSome_bind_filledText?_iff.mp hv
    exact ⟨info, title, version, hi, ht, htf, hv, hvf⟩
  · intro h
    obtain ⟨info, title, version, hi, ht, htf, hv, hvf⟩ := h
    exact ⟨_, ⟨info, hi, rfl⟩, Json.isSome_bind_filledText?_iff.mpr ⟨title, ht, htf⟩,
      Json.isSome_bind_filledText?_iff.mpr ⟨version, hv, hvf⟩⟩

theorem head?_eq_slash_iff {path : String} :
    path.toList.head? = some '/' ↔ ∃ rest, path = "/" ++ rest := by
  rw [List.head?_eq_some_iff]
  constructor
  · intro h
    obtain ⟨rest, h⟩ := h
    exact ⟨.ofList rest, String.toList_inj.mp (by simpa using h)⟩
  · intro h
    obtain ⟨rest, rfl⟩ := h
    exact ⟨rest.toList, by simp⟩

theorem Document.components_wellTyped_iff {limit : Nat} {value : Json} :
    (∀ entry ∈ (ofJson value).componentSchemas, Schema.WellTyped limit entry.2) ↔
      ∀ root, value.HasComponent root → Json.TypesAllowed limit root := by
  rw [forall_components_ofJson_iff (Schema.wellTyped_none limit)]
  simp only [Schema.wellTyped_ofEntries_iff]

theorem Document.pathItems_ofJson_iff {limit : Nat} {value : Json} :
    (∀ entry ∈ (ofJson value).pathItems, entry.1.toList.head? = some '/' ∧
        ∀ operation ∈ entry.2.operations, operation.2.Answers limit) ↔
      (∀ paths, value.get? "paths" = some (.object paths) →
        ∀ path entry, (path, entry) ∈ paths → ∃ rest, path = "/" ++ rest) ∧
      ∀ path key method operation, value.HasOperation path key method operation →
        (Operation.ofJson method operation).Answers limit := by
  constructor
  · intro h
    constructor
    · intro paths hp path entry he
      exact head?_eq_slash_iff.mp (h _ (mem_pathItems_ofJson_iff.mpr ⟨_, _, hp, he, rfl⟩)).1
    · intro path key method operation ho
      obtain ⟨hp, he, ho, hm⟩ := ho
      have hi := h _ (mem_pathItems_ofJson_iff.mpr ⟨_, _, hp, he, rfl⟩)
      exact hi.2 _ (PathItem.mem_operations_ofJson_iff.mpr ⟨_, _, _, rfl, ho, hm, rfl⟩)
  · rintro ⟨hs, ha⟩ ⟨path, _⟩ hn
    obtain ⟨paths, entry, hp, he, rfl⟩ := mem_pathItems_ofJson_iff.mp hn
    refine ⟨head?_eq_slash_iff.mpr (hs paths hp path entry he), ?_⟩
    rintro ⟨key, _⟩ hn
    obtain ⟨item, method, operation, rfl, ho, hm, rfl⟩ := PathItem.mem_operations_ofJson_iff.mp hn
    exact ha path key method operation (.intro hp he ho hm)

/-- What is read from a value is valid exactly if the value meets the rules. -/
theorem isValid_validate_ofJson_iff (value : Json) (options : Options) :
    (validate (.ofJson value) options).isValid ↔ value.MeetsErrorRules options.maxSchemaDepth := by
  have hr : (validate (.ofJson value) options).isValid ↔
      (checkDocument (.ofJson value) options {}).Clean := List.isEmpty_iff
  have empty : ({} : Diagnostics).Clean := rfl
  rw [hr, clean_checkDocument_iff, Document.info_ofJson_iff, Document.components_wellTyped_iff,
    Document.pathItems_ofJson_iff]
  constructor
  · intro h
    obtain ⟨-, ⟨text, ho, hs⟩, hi, ⟨_, hp⟩, hc, hslash, ha⟩ := h
    obtain ⟨version, hv, ht⟩ := Document.openapi_ofJson_eq_some_iff.mp ho
    obtain ⟨paths, hp, -⟩ := Field.ofJson_eq_present_iff.mp hp
    refine ⟨⟨version, text, hv, ht, hs⟩, hi, ⟨paths, hp, hslash paths hp⟩, ?_, ?_⟩
    · intro path key method operation h
      exact (Operation.answers_ofJson_iff.mp (ha _ _ _ _ h)).1
    · rw [Json.forall_hasSchemaNode_iff]
      intro root hr
      rcases hr with hr | ⟨h, hb⟩
      · exact hc root hr
      · exact (Operation.answers_ofJson_iff.mp (ha _ _ _ _ h)).2 root hb
  · intro h
    obtain ⟨⟨version, text, hv, ht, hs⟩, hi, ⟨paths, hp, hslash⟩, hresponses, htypes⟩ := h
    rw [Json.forall_hasSchemaNode_iff] at htypes
    refine ⟨empty, ⟨text, Document.openapi_ofJson_eq_some_iff.mpr ⟨version, hv, ht⟩, hs⟩, hi,
      ⟨_, Field.ofJson_eq_present_iff.mpr ⟨paths, hp, rfl⟩⟩,
      fun root hr => htypes root (.component hr), ?_, ?_⟩
    · intro paths' hp'
      obtain rfl : paths = paths' := by simpa [hp] using hp'
      exact hslash
    · intro path key method operation h
      exact Operation.answers_ofJson_iff.mpr
        ⟨hresponses _ _ _ _ h, fun root hb => htypes root (.body h hb)⟩

end ApiLint
