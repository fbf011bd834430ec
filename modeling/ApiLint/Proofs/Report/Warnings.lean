import ApiLint.Proofs.Document.Reading
import ApiLint.Proofs.Schema.Walk
import ApiLint.Report

/-! There are no warnings exactly if the value that a description is read from meets the rules of
severity warning. As for errors, each check is told by what it demands, and the rules are what all
checks demand together. -/

namespace ApiLint

namespace Diagnostics

/-- No warnings were found. -/
def Quiet (found : Diagnostics) : Prop := found.ofSeverity .warning = []

theorem quiet_push_iff {found : Diagnostics} {rule : Rule} {path message : String} :
    (found.push rule path message).Quiet ↔ found.Quiet ∧ rule.severity = .error := by
  rw [Quiet, ofSeverity_push, List.append_eq_nil_iff, Quiet]
  cases h : rule.severity <;> simp [Diagnostic.severity, h]

theorem quiet_push_if_iff {rule : Rule} (hr : rule.severity = .warning) {condition : Prop}
    [Decidable condition] {found : Diagnostics} {path message : String} :
    (if condition then found.push rule path message else found).Quiet ↔
      found.Quiet ∧ ¬condition := by
  split <;> simp [quiet_push_iff, *]

/-- A finding of severity warning for each of some items: only no items leave no warning. -/
theorem quiet_foldl_push_iff {rule : Rule} (hr : rule.severity = .warning) (path : String)
    (message : String → String) (items : List String) (found : Diagnostics) :
    (items.foldl (fun found item => found.push rule path (message item)) found).Quiet ↔
      found.Quiet ∧ items = [] := by
  rw [foldl_iff Quiet fun item found => quiet_push_iff, hr, List.eq_nil_iff_forall_not_mem]
  simp

end Diagnostics

open Diagnostics

/-! ## What keeps the checks from finding warnings -/

theorem quiet_checkVersion_iff {document : Document} {found : Diagnostics} :
    (checkVersion document found).Quiet ↔ found.Quiet := by
  unfold checkVersion
  split
  · simp [quiet_push_iff, Rule.severity]
  · split <;> simp [quiet_push_iff, Rule.severity]

theorem quiet_checkInfo_iff {document : Document} {found : Diagnostics} :
    (checkInfo document found).Quiet ↔ found.Quiet := by
  unfold checkInfo
  split
  · simp [quiet_push_iff, Rule.severity]
  · simp [quiet_push_iff, Rule.severity]
  · dsimp only
    split <;> split <;> simp [quiet_push_iff, Rule.severity]

theorem quiet_checkPathsField_iff {document : Document} {found : Diagnostics} :
    (checkPathsField document found).Quiet ↔ found.Quiet ∧ document.paths ≠ .present [] := by
  unfold checkPathsField
  cases document.paths with
  | missing => simp [quiet_push_iff, Rule.severity]
  | notObject _ => simp [quiet_push_iff, Rule.severity]
  | present paths => cases paths <;> simp [quiet_push_iff, Rule.severity]

/-- The declared tags are those that operations use. -/
theorem quiet_checkTags_iff {document : Document} {found : Diagnostics} :
    (checkTags document found).Quiet ↔ found.Quiet ∧
      ∀ tag, tag ∈ document.declaredTags ↔ tag ∈ document.usedTags := by
  have hall (tags others : List String) :
      tags.filter (!others.contains ·) = [] ↔ ∀ tag ∈ tags, tag ∈ others := by
    simp [List.filter_eq_nil_iff]
  simp only [checkTags]
  rw [quiet_foldl_push_iff rfl, quiet_foldl_push_iff rfl, hall, hall, and_assoc]
  simp only [iff_def, forall_and]

/-- No node is the first one beyond the limit. -/
def Schema.Within (limit : Nat) (schema : Option Schema) : Prop :=
  ∀ node ∈ nodeTypes schema, node.1.length ≠ limit + 1

section

variable (options : Options) (found : Diagnostics)

theorem quiet_walkSchema_iff (schema : Option Schema) (base : String) :
    (walkSchema options schema base found).Quiet ↔
      found.Quiet ∧ Schema.Within options.maxSchemaDepth schema := by
  rw [Quiet, warnings_walkSchema, List.append_eq_nil_iff, depthWarnings, List.map_eq_nil_iff,
    List.filter_eq_nil_iff]
  simp only [decide_eq_true_eq]
  rfl

theorem quiet_checkComponents_iff (document : Document) :
    (checkComponents document options found).Quiet ↔ found.Quiet ∧
      ∀ entry ∈ document.componentSchemas, Schema.Within options.maxSchemaDepth entry.2 :=
  foldl_iff Quiet (fun entry found => quiet_walkSchema_iff options found entry.2 _) _ found

theorem quiet_checkResponse_iff (context code : String) (response : Response) :
    (checkResponse options context code response found).Quiet ↔ found.Quiet ∧
      ∀ body ∈ response.content, Schema.Within options.maxSchemaDepth body.2.schema :=
  foldl_iff Quiet (fun body found => quiet_walkSchema_iff options found body.2.schema _) _ found

/-- What keeps an operation from warnings. Responses that are not there are an error. -/
structure Operation.Complete (limit : Nat) (operation : Operation) : Prop where
  success : ∀ responses, operation.responses = some responses →
    ∃ code ∈ successCodes, (responses.lookup code).isSome
  bodies : ∀ entry ∈ operation.responses.getD [], ∀ body ∈ entry.2.content,
    Schema.Within limit body.2.schema
  documented : operation.summary.isSome ∨ operation.description.isSome
  tagged : operation.tags ≠ []

theorem quiet_checkResponses_iff (label context : String) (responses : Option (Entries Response)) :
    (checkResponses options label context responses found).Quiet ↔ found.Quiet ∧
      (∀ entry ∈ responses.getD [], ∀ body ∈ entry.2.content,
        Schema.Within options.maxSchemaDepth body.2.schema) ∧
      ∀ entries, responses = some entries →
        ∃ code ∈ successCodes, (entries.lookup code).isSome := by
  unfold checkResponses
  cases responses with
  | none => simp [quiet_push_iff, Rule.severity]
  | some entries =>
      have hr := foldl_iff Quiet
        (fun entry found => quiet_checkResponse_iff options found context entry.1 entry.2)
        entries found
      simp only [Option.getD_some, Option.some.injEq, forall_eq', ← List.any_eq_true, ← and_assoc]
      rw [← hr]
      split
      · rename_i hs
        exact (and_iff_left hs).symm
      · rename_i hs
        simp only [quiet_push_iff, Rule.severity, hs, reduceCtorEq, and_false]

theorem quiet_checkOperation_iff (path key : String) (operation : Operation) :
    (checkOperation options path key operation found).Quiet ↔
      found.Quiet ∧ operation.Complete options.maxSchemaDepth := by
  have hd : ¬operation.isUndocumented ↔
      operation.summary.isSome ∨ operation.description.isSome := by
    rw [Operation.isUndocumented]
    cases operation.summary <;> cases operation.description <;> simp
  simp only [checkOperation]
  rw [quiet_push_if_iff rfl, quiet_push_if_iff rfl, quiet_checkResponses_iff, hd,
    List.isEmpty_iff]
  constructor
  · intro h
    obtain ⟨⟨⟨hf, hb, hs⟩, hd⟩, ht⟩ := h
    exact ⟨hf, hs, hb, hd, ht⟩
  · intro h
    obtain ⟨hf, hs, hb, hd, ht⟩ := h
    exact ⟨⟨⟨hf, hb, hs⟩, hd⟩, ht⟩

theorem quiet_checkPathItem_iff (path : String) (item : PathItem) :
    (checkPathItem options path item found).Quiet ↔ found.Quiet ∧
      ∀ entry ∈ item.operations, entry.2.Complete options.maxSchemaDepth := by
  simp only [checkPathItem]
  rw [foldl_iff Quiet fun entry found =>
    quiet_checkOperation_iff options found path entry.1 entry.2]
  refine and_congr_left fun _ => ?_
  split <;> simp [quiet_push_iff, Rule.severity]

theorem quiet_checkPaths_iff (document : Document) :
    (checkPaths document options found).Quiet ↔ found.Quiet ∧
      ∀ operation ∈ document.operations, operation.Complete options.maxSchemaDepth := by
  rw [checkPaths, foldl_iff Quiet fun entry found =>
    quiet_checkPathItem_iff options found entry.1 entry.2]
  simp only [Document.operations, List.forall_mem_flatMap, List.forall_mem_map]

theorem quiet_checkDocument_iff (document : Document) :
    (checkDocument document options found).Quiet ↔ found.Quiet ∧
      document.paths ≠ .present [] ∧
      (∀ entry ∈ document.componentSchemas, Schema.Within options.maxSchemaDepth entry.2) ∧
      (∀ operation ∈ document.operations, operation.Complete options.maxSchemaDepth) ∧
      ∀ tag, tag ∈ document.declaredTags ↔ tag ∈ document.usedTags := by
  rw [checkDocument, quiet_checkTags_iff, quiet_checkPaths_iff, quiet_checkComponents_iff,
    checkRoot, quiet_checkPathsField_iff, quiet_checkInfo_iff, quiet_checkVersion_iff]
  simp only [and_assoc]

end

/-! ## The rules for a value -/

namespace Json

/-- The text is one of the tags of an operation. -/
inductive HasTag (operation : Json) : String → Prop where
  | intro {tags tag text} : operation.get? "tags" = some (.array tags) → tag ∈ tags →
      tag.HasText text → HasTag operation text

/-- The text is the name of one of the tags of a description. -/
inductive DeclaresTag (value : Json) : String → Prop where
  | intro {tags tag name text} : value.get? "tags" = some (.array tags) → tag ∈ tags →
      tag.get? "name" = some name → name.HasText text → DeclaresTag value text

/-- The rules of severity warning. -/
structure MeetsWarningRules (limit : Nat) (value : Json) : Prop where
  paths : value.get? "paths" ≠ some (.object [])
  success : ∀ path key method operation, value.HasOperation path key method operation →
    ∀ responses, operation.get? "responses" = some (.object responses) →
      ∃ response, ("200", response) ∈ responses ∨ ("201", response) ∈ responses
  documentation : ∀ path key method operation, value.HasOperation path key method operation →
    ∃ text, (operation.get? "summary" = some text ∨ operation.get? "description" = some text) ∧
      text.Filled
  tags : ∀ path key method operation, value.HasOperation path key method operation →
    ∃ tag, operation.HasTag tag
  depth : ∀ node, ¬value.HasSchemaNode (limit + 1) node
  declarations : ∀ tag, value.DeclaresTag tag ↔
    ∃ path key method operation, value.HasOperation path key method operation ∧
      operation.HasTag tag

end Json

theorem Schema.within_none (limit : Nat) : Within limit none := by
  simp [Within, nodeTypes]

theorem Schema.within_ofEntries_iff {limit : Nat} {root : Entries Json} :
    Within limit (some (ofEntries root)) ↔
      ∀ location node, Json.schemaTree.Reaches root location node →
        location.length ≠ limit + 1 := by
  simp only [Within, nodeTypes, nodes_ofEntries, List.map_map, List.forall_mem_map, Prod.forall,
    Branching.mem_nodes_iff]
  rfl

theorem Json.forall_not_hasSchemaNode_iff {limit : Nat} {value : Json} :
    (∀ node, ¬value.HasSchemaNode (limit + 1) node) ↔
      ∀ root, value.HasSchema root → Schema.Within limit (some (.ofEntries root)) := by
  simp only [Schema.within_ofEntries_iff]
  constructor
  · intro h root hr location node hl he
    exact h node (hasSchemaNode_iff.mpr ⟨root, location, hr, hl, he⟩)
  · intro h node hn
    obtain ⟨root, location, hr, hl, he⟩ := hasSchemaNode_iff.mp hn
    exact h root hr location node hl he

theorem Document.paths_ofJson_eq_nil_iff {value : Json} :
    (ofJson value).paths = .present [] ↔ value.get? "paths" = some (.object []) := by
  rw [ofJson, Field.ofJson_eq_present_iff]
  simp [Paths.ofJson, Json.entries?]

theorem Operation.mem_tags_ofJson_iff {method : HttpMethod} {value : Json} {text : String} :
    text ∈ (ofJson method value).tags ↔ value.HasTag text := by
  simp only [ofJson, List.mem_filterMap, mem_getD_nil_iff, Option.bind_eq_some_iff,
    Json.elements?_eq_some_iff, ← Json.hasText_iff]
  constructor
  · intro h
    obtain ⟨tag, ⟨tags, ⟨_, ht, rfl⟩, hm⟩, hx⟩ := h
    exact .intro ht hm hx
  · intro h
    obtain ⟨ht, hm, hx⟩ := h
    exact ⟨_, ⟨_, ⟨_, ht, rfl⟩, hm⟩, hx⟩

theorem Document.mem_declaredTags_ofJson_iff {value : Json} {text : String} :
    text ∈ (ofJson value).declaredTags ↔ value.DeclaresTag text := by
  simp only [declaredTags, ofJson, List.mem_eraseDups, List.mem_filterMap, List.mem_map,
    mem_getD_nil_iff, Option.bind_eq_some_iff, Json.elements?_eq_some_iff]
  constructor
  · intro h
    obtain ⟨_, ⟨tag, ⟨tags, ⟨_, ht, rfl⟩, hm⟩, rfl⟩, hn⟩ := h
    obtain ⟨name, hn, hx⟩ := Option.bind_eq_some_iff.mp hn
    exact .intro ht hm hn (Json.hasText_iff.mpr hx)
  · intro h
    obtain ⟨ht, hm, hn, hx⟩ := h
    exact ⟨_, ⟨_, ⟨_, ⟨_, ht, rfl⟩, hm⟩, rfl⟩,
      Option.bind_eq_some_iff.mpr ⟨_, hn, Json.hasText_iff.mp hx⟩⟩

theorem Document.mem_usedTags_ofJson_iff {value : Json} {text : String} :
    text ∈ (ofJson value).usedTags ↔ ∃ path key method operation,
      value.HasOperation path key method operation ∧ operation.HasTag text := by
  simp only [usedTags, List.mem_eraseDups, List.mem_flatMap, mem_operations_ofJson_iff]
  constructor
  · intro h
    obtain ⟨_, ⟨path, key, method, operation, ho, rfl⟩, ht⟩ := h
    exact ⟨path, key, method, operation, ho, Operation.mem_tags_ofJson_iff.mp ht⟩
  · intro h
    obtain ⟨path, key, method, operation, ho, ht⟩ := h
    exact ⟨_, ⟨path, key, method, operation, ho, rfl⟩, Operation.mem_tags_ofJson_iff.mpr ht⟩

theorem Operation.success_ofJson_iff {method : HttpMethod} {value : Json} :
    (∀ responses, (ofJson method value).responses = some responses →
        ∃ code ∈ successCodes, (responses.lookup code).isSome) ↔
      ∀ responses, value.get? "responses" = some (.object responses) →
        ∃ response, ("200", response) ∈ responses ∨ ("201", response) ∈ responses := by
  have hread (responses : Entries Json) :
      (∃ code ∈ successCodes,
        ((responses.map fun entry => (entry.1, Response.ofJson entry.2)).lookup code).isSome) ↔
        ∃ response, ("200", response) ∈ responses ∨ ("201", response) ∈ responses := by
    simp [successCodes, exists_or]
  simp only [responses_ofJson, Json.entriesUnder?_eq_some_iff]
  constructor
  · intro h responses hr
    exact (hread responses).mp (h _ ⟨responses, hr, rfl⟩)
  · rintro h _ ⟨responses, hr, rfl⟩
    exact (hread responses).mpr (h responses hr)

theorem Operation.documented_ofJson_iff {method : HttpMethod} {value : Json} :
    ((ofJson method value).summary.isSome ∨ (ofJson method value).description.isSome) ↔
      ∃ text, (value.get? "summary" = some text ∨ value.get? "description" = some text) ∧
        text.Filled := by
  simp only [ofJson, Json.isSome_bind_filledText?_iff, or_and_right, exists_or]

theorem Operation.complete_ofJson_iff {limit : Nat} {method : HttpMethod} {value : Json} :
    (ofJson method value).Complete limit ↔
      (∀ responses, value.get? "responses" = some (.object responses) →
        ∃ response, ("200", response) ∈ responses ∨ ("201", response) ∈ responses) ∧
      (∀ root, value.HasBody root → Schema.Within limit (some (.ofEntries root))) ∧
      (∃ text, (value.get? "summary" = some text ∨ value.get? "description" = some text) ∧
        text.Filled) ∧
      ∃ tag, value.HasTag tag := by
  have ht : (ofJson method value).tags ≠ [] ↔ ∃ tag, value.HasTag tag := by
    simp only [ne_eq, List.eq_nil_iff_forall_not_mem, mem_tags_ofJson_iff, not_forall, not_not]
  rw [← success_ofJson_iff, ← forall_bodies_ofJson_iff (Schema.within_none limit),
    ← documented_ofJson_iff, ← ht]
  constructor
  · intro h
    exact ⟨h.success, h.bodies, h.documented, h.tagged⟩
  · intro h
    obtain ⟨hs, hb, hd, ht⟩ := h
    exact ⟨hs, hb, hd, ht⟩

/-- What is read from a value has no warnings exactly if the value meets the rules. -/
theorem warnings_validate_ofJson_eq_nil_iff (value : Json) (options : Options) :
    (validate (.ofJson value) options).warnings = [] ↔
      value.MeetsWarningRules options.maxSchemaDepth := by
  have hr : (validate (.ofJson value) options).warnings = [] ↔
      (checkDocument (.ofJson value) options {}).Quiet := Iff.rfl
  have empty : ({} : Diagnostics).Quiet := rfl
  rw [hr, quiet_checkDocument_iff, ne_eq, Document.paths_ofJson_eq_nil_iff,
    Document.forall_components_ofJson_iff (Schema.within_none options.maxSchemaDepth)]
  simp only [Document.mem_declaredTags_ofJson_iff, Document.mem_usedTags_ofJson_iff,
    Document.mem_operations_ofJson_iff]
  constructor
  · intro h
    obtain ⟨-, hpaths, hc, ho, ht⟩ := h
    have ho {path key : String} {method : HttpMethod} {operation : Json}
        (h : value.HasOperation path key method operation) :=
      Operation.complete_ofJson_iff.mp (ho _ ⟨path, key, method, operation, h, rfl⟩)
    refine ⟨hpaths, ?_, ?_, ?_, ?_, ht⟩
    · intro path key method operation h
      exact (ho h).1
    · intro path key method operation h
      exact (ho h).2.2.1
    · intro path key method operation h
      exact (ho h).2.2.2
    · rw [Json.forall_not_hasSchemaNode_iff]
      intro root hr
      cases hr with
      | component hr => exact hc root hr
      | body h hb => exact (ho h).2.1 root hb
  · intro h
    obtain ⟨hpaths, hs, hd, ht, hdepth, hdecl⟩ := h
    rw [Json.forall_not_hasSchemaNode_iff] at hdepth
    refine ⟨empty, hpaths, fun root hr => hdepth root (.component hr), ?_, hdecl⟩
    rintro _ ⟨path, key, method, operation, h, rfl⟩
    exact Operation.complete_ofJson_iff.mpr ⟨hs _ _ _ _ h,
      fun root hb => hdepth root (.body h hb), hd _ _ _ _ h, ht _ _ _ _ h⟩

end ApiLint
