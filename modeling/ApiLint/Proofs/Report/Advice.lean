import ApiLint.Proofs.Report.Tally

/-! Summaries, descriptions, tags and extensions only bring advice: descriptions that are equal
without them have the same errors, the same warnings about their structure, and the same counts but
for that of the declared tags. -/

namespace ApiLint

/-! ## Descriptions without what advice is about -/

def Operation.withoutAdvice (operation : Operation) : Operation :=
  { operation with tags := [], summary := none, description := none }

def PathItem.withoutAdvice (item : PathItem) : PathItem where
  operations := item.operations.map fun (key, operation) => (key, operation.withoutAdvice)
  extensions := []

def Field.map {α β : Type} (f : α → β) : Field α → Field β
  | .missing => .missing
  | .notObject value => .notObject value
  | .present value => .present (f value)

namespace Document

/-- The version, the information, the components and of every operation its place, method and
responses: all that is not only for readers. -/
def withoutAdvice (document : Document) : Document :=
  { document with
    paths := document.paths.map (List.map fun (path, item) => (path, item.withoutAdvice))
    tags := [] }

theorem pathItems_withoutAdvice (document : Document) :
    document.withoutAdvice.pathItems =
      document.pathItems.map fun (path, item) => (path, item.withoutAdvice) := by
  rw [pathItems, pathItems, withoutAdvice]
  cases document.paths <;> rfl

theorem operations_withoutAdvice (document : Document) :
    document.withoutAdvice.operations = document.operations.map Operation.withoutAdvice := by
  simp only [operations, pathItems_withoutAdvice, List.flatMap_map, List.map_flatMap,
    PathItem.withoutAdvice, List.map_map]
  rfl

end Document

/-! ## Findings about the structure -/

/-- The rules of severity warning that are about the structure of a description. -/
def structuralRules : List Rule := [.emptyPaths, .noSuccessResponse, .schemaTooDeep]

namespace Diagnostics

/-- The errors, and the warnings about the structure. -/
def structural (found : Diagnostics) : Diagnostics where
  errors := found.errors
  warnings := found.warnings.filter (·.rule ∈ structuralRules)

/-- What was found about the structure is the same. -/
def SameStructure (found other : Diagnostics) : Prop := found.structural = other.structural

theorem structural_append (before after : Diagnostics) :
    (before ++ after).structural = before.structural ++ after.structural :=
  congrArg (Diagnostics.mk _) (Array.filter_append Array.size_append)

theorem structural_push {rule : Rule} (hs : rule.severity = .warning) (hr : rule ∉ structuralRules)
    (found : Diagnostics) (path message : String) :
    (found.push rule path message).structural = found.structural := by
  have hn : (ofList [⟨rule, message, path⟩]).structural = {} := by
    simp [ofList, structural, Diagnostic.severity, hs, hr]
  rw [push_eq_append, structural_append, hn, append_empty]

end Diagnostics

open Diagnostics

theorem Appends.structural {check : Diagnostics → Diagnostics} (h : Appends check)
    {found other : Diagnostics} (hf : found.structural = other.structural) :
    (check found).structural = (check other).structural := by
  obtain ⟨findings, h⟩ := h
  rw [h, h, structural_append, structural_append, hf]

/-! ## Checks -/

section

variable (options : Options) {found other : Diagnostics}

/-- Of the findings at an operation only those about its responses are structural. -/
theorem structural_checkOperation_eq (path key : String) (operation : Operation)
    (found : Diagnostics) :
    (checkOperation options path key operation found).structural =
      (checkResponses options (operation.method.label ++ " " ++ path)
        ("paths." ++ path ++ "." ++ key) operation.responses found).structural := by
  have hd : Rule.missingDocumentation ∉ structuralRules := by decide
  have ht : Rule.missingOperationTags ∉ structuralRules := by decide
  rw [checkOperation]
  split <;> split <;> simp only [structural_push rfl hd, structural_push rfl ht]

theorem structural_checkOperation (path key : String) (operation : Operation)
    (hf : found.structural = other.structural) :
    (checkOperation options path key operation found).structural =
      (checkOperation options path key operation.withoutAdvice other).structural := by
  rw [structural_checkOperation_eq, structural_checkOperation_eq]
  exact (appends_checkResponses options _ _ operation.responses).structural hf

theorem structural_checkPathItem (path : String) (item : PathItem)
    (hf : found.structural = other.structural) :
    (checkPathItem options path item found).structural =
      (checkPathItem options path item.withoutAdvice other).structural := by
  rw [checkPathItem, checkPathItem, PathItem.withoutAdvice, List.foldl_map]
  exact List.foldl_rel (r := SameStructure) (Appends.structural (.ite _ .id (.push _ _ _)) hf)
    fun _ _ _ _ hc => structural_checkOperation options path _ _ hc

theorem structural_checkPaths (document : Document) (hf : found.structural = other.structural) :
    (checkPaths document options found).structural =
      (checkPaths document.withoutAdvice options other).structural := by
  rw [checkPaths, checkPaths, Document.pathItems_withoutAdvice, List.foldl_map]
  exact List.foldl_rel (r := SameStructure) hf fun _ _ _ _ hc =>
    structural_checkPathItem options _ _ hc

theorem structural_checkTags (document : Document) (found : Diagnostics) :
    (checkTags document found).structural = found.structural := by
  have each {rule : Rule} (hs : rule.severity = .warning) (hr : rule ∉ structuralRules)
      (tags : List String) (message : String → String) (found : Diagnostics) :
      (tags.foldl (fun found tag => found.push rule "tags" (message tag)) found).structural =
        found.structural :=
    List.foldlRecOn tags _ (motive := fun after => after.structural = found.structural) rfl
      fun after ha tag _ => (structural_push hs hr after _ _).trans ha
  exact (each rfl (by decide) _ _ _).trans (each rfl (by decide) _ _ _)

theorem checkRoot_withoutAdvice (document : Document) :
    checkRoot document.withoutAdvice = checkRoot document := by
  have hp : checkPathsField document.withoutAdvice = checkPathsField document := by
    funext found
    rw [checkPathsField, checkPathsField, Document.withoutAdvice]
    cases document.paths with
    | missing => rfl
    | notObject value => rfl
    | present paths => simp only [Field.map, List.isEmpty_map]
  funext found
  rw [checkRoot, checkRoot, hp]
  rfl

theorem structural_checkDocument (document : Document) (found : Diagnostics) :
    (checkDocument document options found).structural =
      (checkDocument document.withoutAdvice options found).structural := by
  have hc : checkComponents document.withoutAdvice options = checkComponents document options := rfl
  rw [checkDocument, checkDocument, structural_checkTags, structural_checkTags,
    checkRoot_withoutAdvice, hc]
  exact structural_checkPaths options document rfl

end

/-! ## Reports -/

theorem stats_withoutAdvice (document : Document) :
    Stats.ofDocument document.withoutAdvice = { Stats.ofDocument document with tagCount := 0 } := by
  have hc (method : HttpMethod) :
      Stats.countMethod (document.operations.map Operation.withoutAdvice) method =
        Stats.countMethod document.operations method :=
    List.countP_map
  have hr : Stats.responseCodesOf (document.operations.map Operation.withoutAdvice) =
      Stats.responseCodesOf document.operations := by
    rw [Stats.responseCodesOf, Stats.responseCodesOf, List.flatMap_map]
    rfl
  simp only [Stats.ofDocument, Document.operations_withoutAdvice, List.length_map, hc, hr]
  rfl

/-- Descriptions that differ only in what advice is about have the same errors and the same warnings
about their structure; of the counts only that of the declared tags may differ. -/
theorem validate_eq_of_withoutAdvice {document other : Document}
    (h : document.withoutAdvice = other.withoutAdvice) (options : Options) :
    (validate document options).errors = (validate other options).errors ∧
      (validate document options).warnings.filter (·.rule ∈ structuralRules) =
        (validate other options).warnings.filter (·.rule ∈ structuralRules) ∧
      (validate other options).stats =
        { (validate document options).stats with tagCount := other.tags.length } := by
  have hd : (checkDocument document options {}).structural =
      (checkDocument other options {}).structural := by
    rw [structural_checkDocument, h, ← structural_checkDocument]
  have hs : { Stats.ofDocument document with tagCount := 0 } =
      { Stats.ofDocument other with tagCount := 0 } := by
    rw [← stats_withoutAdvice, h, stats_withoutAdvice]
  refine ⟨congrArg (·.errors.toList) hd, ?_, ?_⟩
  · have hw := congrArg (·.warnings.toList) hd
    simp only [Diagnostics.structural, Array.toList_filter] at hw
    exact hw
  · exact congrArg (fun stats : Stats => { stats with tagCount := other.tags.length }) hs.symm

/-- A description of one operation, which answers with one code that is no success. -/
def describedPets (summary : Option String) (used : List String) (extensions : Entries Json)
    (declared : List Tag) : Document where
  openapi := some "3.0.0"
  info := .present ⟨some "Pets", some "1"⟩
  paths := .present [("/pets",
    ⟨[("get", ⟨.get, some [("404", ⟨[]⟩)], used, summary, none⟩)], extensions⟩)]
  components := none
  tags := declared

theorem validate_eq_of_withoutAdvice_describedPets :
    let plain := describedPets none [] [] []
    let detailed := describedPets (some "All pets") ["pets"] [("x-owner", .string "shop")]
      [⟨some "cats", none⟩]
    plain.withoutAdvice = detailed.withoutAdvice ∧
      (validate plain ⟨64⟩).warnings ≠ (validate detailed ⟨64⟩).warnings ∧
      (validate plain ⟨64⟩).warnings.filter (·.rule ∈ structuralRules) ≠ [] ∧
      (validate plain ⟨64⟩).warnings.filter (·.rule ∈ structuralRules) =
        (validate detailed ⟨64⟩).warnings.filter (·.rule ∈ structuralRules) := by
  have h : (describedPets none [] [] []).withoutAdvice =
      (describedPets (some "All pets") ["pets"] [("x-owner", .string "shop")]
        [⟨some "cats", none⟩]).withoutAdvice := rfl
  exact ⟨h, by decide +kernel, by decide +kernel, (validate_eq_of_withoutAdvice h ⟨64⟩).2.1⟩

end ApiLint
