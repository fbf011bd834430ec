import ApiLint.Proofs.FirstOccurrences
import ApiLint.Proofs.Report.Tally
import ApiLint.Proofs.Stats

/-! Path items are checked and counted one by one: nothing is carried from one to the next. What is
told of a description is told of its path items in two parts, and the two put together. -/

namespace ApiLint

/-! ## Findings -/

/-- What is found at a path item does not depend on the items before it. -/
theorem ofSeverity_checkPaths (document : Document) (options : Options) (found : Diagnostics)
    (severity : Severity) :
    (checkPaths document options found).ofSeverity severity =
      found.ofSeverity severity ++ document.pathItems.flatMap fun (path, item) =>
        (checkPathItem options path item {}).ofSeverity severity :=
  Appends.ofSeverity_foldl (fun (path, item) => appends_checkPathItem options path item)
    document.pathItems found severity

namespace Document

/-- The description with other path items. -/
def withPaths (document : Document) (paths : Paths) : Document :=
  { document with paths := .present paths }

@[simp] theorem pathItems_withPaths (document : Document) (paths : Paths) :
    (document.withPaths paths).pathItems = paths :=
  rfl

/-! ## Two parts -/

/-- The path items of `whole` are checked and counted as those of `first` and then those of
`second`. -/
structure Combines (options : Options) (whole first second : Document) : Prop where
  findings : ∀ found severity,
    (checkPaths whole options found).ofSeverity severity =
      found.ofSeverity severity ++ (checkPaths first options {}).ofSeverity severity ++
        (checkPaths second options {}).ofSeverity severity
  endpointCount : (Stats.ofDocument whole).endpointCount =
    (Stats.ofDocument first).endpointCount + (Stats.ofDocument second).endpointCount
  methodCount : ∀ method, (Stats.ofDocument whole).methodCount method =
    (Stats.ofDocument first).methodCount method + (Stats.ofDocument second).methodCount method
  /-- A strictly ascending list is told by its members. -/
  responseCodes : (Stats.ofDocument whole).responseCodes.Pairwise (· < ·) ∧
    ∀ code, code ∈ (Stats.ofDocument whole).responseCodes ↔
      code ∈ (Stats.ofDocument first).responseCodes ∨
        code ∈ (Stats.ofDocument second).responseCodes
  usedTags : whole.usedTags =
    first.usedTags ++ second.usedTags.filter (!first.usedTags.contains ·)

theorem combines_of_pathItems {whole first second : Document} (options : Options)
    (h : whole.pathItems = first.pathItems ++ second.pathItems) :
    Combines options whole first second := by
  have ho : whole.operations = first.operations ++ second.operations := by
    rw [operations, h, List.flatMap_append]
    rfl
  constructor
  case findings =>
    intro found severity
    simp only [ofSeverity_checkPaths, h, List.flatMap_append, Diagnostics.ofSeverity_empty,
      List.nil_append, List.append_assoc]
  case endpointCount =>
    simp only [Stats.ofDocument, ho, List.length_append]
  case methodCount =>
    intro method
    simp only [Stats.methodCount_ofDocument, Stats.countMethod, ho, List.countP_append]
  case responseCodes =>
    refine ⟨Stats.pairwise_responseCodesOf _, fun code => ?_⟩
    simp only [Stats.ofDocument, Stats.mem_responseCodesOf_iff, ho, List.flatMap_append,
      List.mem_append]
  case usedTags =>
    simp only [usedTags, ho, List.flatMap_append]
    exact eraseDups_append_eq_filter _ _

/-- Wherever the path items are cut, both parts are checked and counted for themselves. So another
item under a path changes what is found there, and nothing that is found before or after it. -/
theorem withPaths_append_combines (document : Document) (options : Options) :
    (∀ first second, Combines options (document.withPaths (first ++ second))
      (document.withPaths first) (document.withPaths second)) ∧
    ∀ before path item after severity,
      (checkPaths (document.withPaths (before ++ (path, item) :: after)) options {}).ofSeverity
          severity =
        (checkPaths (document.withPaths before) options {}).ofSeverity severity ++
          (checkPathItem options path item {}).ofSeverity severity ++
          (checkPaths (document.withPaths after) options {}).ofSeverity severity := by
  constructor
  · intro first second
    exact combines_of_pathItems options rfl
  · intro before path item after severity
    simp only [ofSeverity_checkPaths, pathItems_withPaths, List.flatMap_append, List.flatMap_cons,
      Diagnostics.ofSeverity_empty, List.nil_append, List.append_assoc]

end Document

end ApiLint
