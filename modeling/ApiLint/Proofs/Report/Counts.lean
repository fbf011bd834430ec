import ApiLint.Proofs.Report.KeyOrder
import ApiLint.Proofs.Report.Rules
import Mathlib.Data.Finset.Card

/-! Findings in numbers. The checks of operations and of tags and the counts of a report go through
the operations separately; here their numbers are held against each other. -/

namespace ApiLint

open Diagnostics

namespace Report

def errorCount (report : Report) (rule : Rule) : Nat := report.errors.countP (·.rule = rule)

def warningCount (report : Report) (rule : Rule) : Nat := report.warnings.countP (·.rule = rule)

end Report

section

variable {rule : Rule} (document : Document) (options : Options)

theorem errorCount_validate (h : rule.severity = .error) :
    (validate document options).errorCount rule =
      ((checkDocument document options {}).ofRule rule).length := by
  rw [Report.errorCount, List.countP_eq_length_filter, ofRule, h]
  rfl

theorem warningCount_validate (h : rule.severity = .warning) :
    (validate document options).warningCount rule =
      ((checkDocument document options {}).ofRule rule).length := by
  rw [Report.warningCount, List.countP_eq_length_filter, ofRule, h]
  rfl

end

/-! ## Operations -/

theorem hasSuccess_iff {responses : Entries Response} :
    hasSuccess responses ↔
      "200" ∈ responses.map Prod.fst ∨ "201" ∈ responses.map Prod.fst := by
  simp only [hasSuccess, successCodes, List.any_cons, List.any_nil, Bool.or_false,
    Bool.or_eq_true, Entries.isSome_lookup_iff]

namespace Operation

/-- An operation breaks a rule about operations. -/
def breaks (operation : Operation) : Rule → Bool
  | .missingResponses => operation.responses.isNone
  | .noSuccessResponse => operation.responses.any fun responses => !hasSuccess responses
  | .missingDocumentation => operation.isUndocumented
  | .missingOperationTags => operation.tags.isEmpty
  | _ => false

theorem responseFindings_eq (operation : Operation) (label context : String) :
    responseFindings label context operation.responses =
      (if operation.breaks .missingResponses then
        [⟨.missingResponses, s!"Missing responses for {label}", context ++ ".responses"⟩]
      else []) ++
      if operation.breaks .noSuccessResponse then
        [⟨.noSuccessResponse, s!"No success response (200/201) defined for {label}",
          context ++ ".responses"⟩]
      else [] := by
  rw [breaks, breaks]
  cases operation.responses with
  | none => rfl
  | some responses =>
      rw [responseFindings, Option.any_some]
      cases hasSuccess responses <;> rfl

/-- No rule is found broken twice at one operation. -/
theorem countP_findings (operation : Operation) (path key : String) (rule : Rule) :
    (operation.findings path key).countP (·.rule = rule) = (operation.breaks rule).toNat := by
  have hif (condition : Bool) (finding : Diagnostic) :
      (if condition then [finding] else []).countP (·.rule = rule) =
        (condition && decide (finding.rule = rule)).toNat := by
    cases condition with
    | true => by_cases h : finding.rule = rule <;> simp [h]
    | false => rfl
  simp only [findings, responseFindings_eq, List.countP_append, hif]
  cases rule <;> simp [breaks]

/-- One of the two rules about responses is broken exactly if no code of success is there. -/
theorem breaks_responses_iff (operation : Operation) :
    operation.breaks .missingResponses || operation.breaks .noSuccessResponse ↔
      "200" ∉ (operation.responses.getD []).map Prod.fst ∧
        "201" ∉ (operation.responses.getD []).map Prod.fst := by
  cases h : operation.responses with
  | none => simp [breaks, h]
  | some responses =>
      rw [← not_or, Option.getD_some, ← hasSuccess_iff]
      simp [breaks, h]

end Operation

/-! ## Documents -/

section

variable (document : Document) (options : Options)

theorem Document.countP_operationFindings (rule : Rule) :
    document.operationFindings.countP (·.rule = rule) =
      document.operations.countP (·.breaks rule) := by
  rw [operationFindings, operations_eq_map]
  induction document.placedOperations with
  | nil => rfl
  | cons placed rest ih =>
      rw [List.flatMap_cons, List.countP_append, ih, Operation.countP_findings, List.map_cons,
        List.countP_cons, add_comm]
      cases placed.2.2.breaks rule <;> rfl

theorem length_ofRule_of_operation {rule : Rule} (h : rule.subject = .operation) :
    ((checkDocument document options {}).ofRule rule).length =
      document.operations.countP (·.breaks rule) := by
  rw [ofRule_checkDocument_of_operation options document h, ← List.countP_eq_length_filter,
    document.countP_operationFindings]

/-- No operation breaks both rules about responses. -/
theorem Document.countP_breaks_responses :
    document.operations.countP (·.breaks .missingResponses) +
        document.operations.countP (·.breaks .noSuccessResponse) =
      document.operations.countP fun operation =>
        operation.breaks .missingResponses || operation.breaks .noSuccessResponse := by
  induction document.operations with
  | nil => rfl
  | cons operation rest ih =>
      have hone : (if operation.breaks .missingResponses then 1 else 0) +
          (if operation.breaks .noSuccessResponse then 1 else 0) =
          if operation.breaks .missingResponses || operation.breaks .noSuccessResponse then 1
          else 0 := by
        cases h : operation.responses <;> simp [Operation.breaks, h]
      rw [List.countP_cons, List.countP_cons, List.countP_cons, ← ih, ← hone]
      omega

theorem Document.usedTags_eq_nil_iff :
    document.usedTags = [] ↔ ∀ operation ∈ document.operations, operation.tags = [] := by
  simp only [usedTags, List.eq_nil_iff_forall_not_mem, List.mem_eraseDups, List.mem_flatMap,
    not_exists, not_and]
  exact ⟨fun h operation ho tag => h tag operation ho, fun h tag operation ho => h operation ho tag⟩

/-- Each name is counted once, however often it is declared. -/
theorem Document.length_declaredTags :
    document.declaredTags.length = (document.tags.filterMap Tag.name).toFinset.card := by
  rw [declaredTags, ← List.toFinset_card_of_nodup (nodup_eraseDups _)]
  congr 1
  ext name
  rw [List.mem_toFinset, List.mem_toFinset, List.mem_eraseDups]

theorem ofRule_unusedTag :
    (checkDocument document options {}).ofRule .unusedTag =
      (document.declaredTags.filter (!document.usedTags.contains ·)).map fun tag =>
        ⟨.unusedTag, s!"Tag \"{tag}\" is defined but never used", "tags"⟩ := by
  have hs (tag : String) (found : Diagnostics) :
      (found.push .undeclaredTag "tags"
        s!"Tag \"{tag}\" is used but not defined in tags section").ofRule .unusedTag =
        found.ofRule .unusedTag := by
    rw [ofRule_push, if_neg (by decide), List.append_nil]
  rw [ofRule_checkDocument_of_tags options document rfl]
  simp only [checkTags]
  rw [ofRule_foldl_of_silent hs, ofRule_foldl_push, ofRule_empty, List.nil_append]

theorem ofRule_undeclaredTag :
    (checkDocument document options {}).ofRule .undeclaredTag =
      (document.usedTags.filter (!document.declaredTags.contains ·)).map fun tag =>
        ⟨.undeclaredTag, s!"Tag \"{tag}\" is used but not defined in tags section", "tags"⟩ := by
  have hs (tag : String) (found : Diagnostics) :
      (found.push .unusedTag "tags" s!"Tag \"{tag}\" is defined but never used").ofRule
        .undeclaredTag = found.ofRule .undeclaredTag := by
    rw [ofRule_push, if_neg (by decide), List.append_nil]
  rw [ofRule_checkDocument_of_tags options document rfl]
  simp only [checkTags]
  rw [ofRule_foldl_push, ofRule_foldl_of_silent hs, ofRule_empty, List.nil_append]

end

/-! ## Reports -/

/-- How the numbers of findings at operations and tags and the counts of a report hang together. -/
structure Report.Reconciles (report : Report) (document : Document) : Prop where
  responses_le : report.errorCount .missingResponses + report.warningCount .noSuccessResponse ≤
    report.stats.endpointCount
  responses_eq_iff :
    report.errorCount .missingResponses + report.warningCount .noSuccessResponse =
        report.stats.endpointCount ↔
      "200" ∉ report.stats.responseCodes ∧ "201" ∉ report.stats.responseCodes
  operationTags_le : report.warningCount .missingOperationTags ≤ report.stats.endpointCount
  operationTags_eq_iff :
    report.warningCount .missingOperationTags = report.stats.endpointCount ↔
      document.usedTags = []
  undeclaredTag_eq_zero : document.usedTags = [] → report.warningCount .undeclaredTag = 0
  /-- Each name is counted once, however often it is declared. -/
  unusedTag_eq_card : document.usedTags = [] →
    report.warningCount .unusedTag = (document.tags.filterMap Tag.name).toFinset.card
  documentation_le : report.warningCount .missingDocumentation ≤ report.stats.endpointCount

section

variable (document : Document) (options : Options)

/-- The operations none of whose responses has a code of success. -/
theorem count_missingResponses_add_noSuccessResponse :
    (validate document options).errorCount .missingResponses +
        (validate document options).warningCount .noSuccessResponse =
      document.operations.countP fun operation =>
        operation.breaks .missingResponses || operation.breaks .noSuccessResponse := by
  rw [errorCount_validate _ _ rfl, warningCount_validate _ _ rfl,
    length_ofRule_of_operation _ _ rfl, length_ofRule_of_operation _ _ rfl,
    document.countP_breaks_responses]

theorem not_mem_responseCodes_iff (code : String) :
    code ∉ (validate document options).stats.responseCodes ↔
      ∀ operation ∈ document.operations,
        code ∉ (operation.responses.getD []).map Prod.fst := by
  have h : (validate document options).stats.responseCodes =
      Stats.responseCodesOf document.operations := rfl
  rw [h, Stats.mem_responseCodesOf_iff, List.mem_flatMap]
  simp only [not_exists, not_and]

theorem warningCount_le {rule : Rule} (hw : rule.severity = .warning)
    (ho : rule.subject = .operation) :
    (validate document options).warningCount rule ≤ document.operations.length := by
  rw [warningCount_validate _ _ hw, length_ofRule_of_operation _ _ ho]
  exact List.countP_le_length

theorem validate_reconciles : (validate document options).Reconciles document := by
  have he : (validate document options).stats.endpointCount = document.operations.length := rfl
  constructor
  case responses_le =>
    rw [count_missingResponses_add_noSuccessResponse, he]
    exact List.countP_le_length
  case responses_eq_iff =>
    rw [count_missingResponses_add_noSuccessResponse, he, List.countP_eq_length,
      not_mem_responseCodes_iff, not_mem_responseCodes_iff, ← forall₂_and]
    exact forall₂_congr fun operation _ => operation.breaks_responses_iff
  case operationTags_le => exact warningCount_le document options rfl rfl
  case operationTags_eq_iff =>
    rw [warningCount_validate _ _ rfl, length_ofRule_of_operation _ _ rfl, he,
      List.countP_eq_length, document.usedTags_eq_nil_iff]
    exact forall₂_congr fun _ _ => List.isEmpty_iff
  case undeclaredTag_eq_zero =>
    intro hu
    rw [warningCount_validate _ _ rfl, ofRule_undeclaredTag, hu, List.filter_nil, List.map_nil,
      List.length_nil]
  case unusedTag_eq_card =>
    intro hu
    rw [warningCount_validate _ _ rfl, ofRule_unusedTag, hu, List.length_map,
      ← document.length_declaredTags]
    exact congrArg List.length (List.filter_eq_self.mpr fun _ _ => rfl)
  case documentation_le => exact warningCount_le document options rfl rfl

end

/-- One of two tags is declared twice, and the only operation has none. -/
def untaggedPets : Json :=
  .object [("tags", .array [.object [("name", .string "pets")], .object [("name", .string "pets")],
      .object [("name", .string "shops")]]),
    ("paths", .object [("/pets", .object [("get", .object [])])])]

theorem validate_reconciles_untaggedPets :
    (Document.ofJson untaggedPets).usedTags = [] ∧
      (validate (.ofJson untaggedPets) ⟨64⟩).warningCount .missingOperationTags = 1 ∧
      (validate (.ofJson untaggedPets) ⟨64⟩).warningCount .unusedTag = 2 := by
  have h := validate_reconciles (.ofJson untaggedPets) ⟨64⟩
  have hu : (Document.ofJson untaggedPets).usedTags = [] := by decide +kernel
  refine ⟨hu, (h.operationTags_eq_iff.mpr hu).trans ?_, (h.unusedTag_eq_card hu).trans ?_⟩
  · decide +kernel
  · decide +kernel

end ApiLint
