import ApiLint.Proofs.Document.Reading
import ApiLint.Proofs.Report.Tally

/-! Findings rule by rule. Every rule has a subject, and each check makes findings about its own
subjects only, so that the findings of a rule in a report are those of one check. At an operation
each rule is broken once at most. -/

namespace ApiLint

/-- What the findings of a rule are about. -/
inductive Subject where
  | version
  | info
  | pathsField
  | path
  | operation
  | schema
  | tags
deriving DecidableEq, Repr

def Rule.subject : Rule → Subject
  | missingOpenapi | invalidOpenapiVersion => .version
  | missingInfo | infoNotObject | missingInfoTitle | missingInfoVersion => .info
  | missingPaths | pathsNotObject | emptyPaths => .pathsField
  | pathMissingSlash => .path
  | missingResponses | noSuccessResponse | missingDocumentation | missingOperationTags =>
    .operation
  | nullType | invalidType | schemaTooDeep => .schema
  | unusedTag | undeclaredTag => .tags

/-! ## The findings of a rule -/

namespace Diagnostics

/-- The findings of a rule, in order. They stand in the list of its severity. -/
def ofRule (found : Diagnostics) (rule : Rule) : List Diagnostic :=
  (found.ofSeverity rule.severity).filter (·.rule = rule)

@[simp] theorem ofRule_empty (rule : Rule) : ({} : Diagnostics).ofRule rule = [] := by
  rw [ofRule, ofSeverity_empty, List.filter_nil]

@[simp] theorem ofRule_append (before after : Diagnostics) (rule : Rule) :
    (before ++ after).ofRule rule = before.ofRule rule ++ after.ofRule rule := by
  rw [ofRule, ofSeverity_append, List.filter_append]
  rfl

/-- A finding has the severity of its rule, so none of a rule is in the other list. -/
theorem ofRule_ofList (findings : List Diagnostic) (rule : Rule) :
    (ofList findings).ofRule rule = findings.filter (·.rule = rule) := by
  rw [ofRule, ofSeverity_ofList, List.filter_filter]
  refine List.filter_congr fun finding _ => ?_
  by_cases h : finding.rule = rule
  · simp [Diagnostic.severity, h]
  · simp [h]

theorem ofRule_push (found : Diagnostics) (rule other : Rule) (path message : String) :
    (found.push other path message).ofRule rule =
      found.ofRule rule ++ if other = rule then [⟨other, message, path⟩] else [] := by
  rw [push_eq_append, ofRule_append, ofRule_ofList]
  by_cases h : other = rule
  · simp [h]
  · simp [h]

theorem ofRule_push_of_subject_ne {rule other : Rule} (h : rule.subject ≠ other.subject)
    (found : Diagnostics) (path message : String) :
    (found.push other path message).ofRule rule = found.ofRule rule := by
  have hr : other ≠ rule := by
    rintro rfl
    exact h rfl
  rw [ofRule_push, if_neg hr, List.append_nil]

theorem ofRule_foldl {α : Type} {rule : Rule} {check : Diagnostics → α → Diagnostics}
    {findings : α → List Diagnostic}
    (h : ∀ item found, (check found item).ofRule rule = found.ofRule rule ++ findings item)
    (items : List α) (found : Diagnostics) :
    (items.foldl check found).ofRule rule = found.ofRule rule ++ items.flatMap findings := by
  induction items generalizing found with
  | nil => simp
  | cons item rest ih =>
      rw [List.foldl_cons, ih, h, List.flatMap_cons, List.append_assoc]

/-- Items at which nothing of the rule is found. -/
theorem ofRule_foldl_of_silent {α : Type} {rule : Rule} {check : Diagnostics → α → Diagnostics}
    (h : ∀ item found, (check found item).ofRule rule = found.ofRule rule) (items : List α)
    (found : Diagnostics) : (items.foldl check found).ofRule rule = found.ofRule rule := by
  induction items generalizing found with
  | nil => rfl
  | cons item rest ih => rw [List.foldl_cons, ih, h]

/-- A finding of one rule for each of some texts. -/
theorem ofRule_foldl_push (rule : Rule) (path : String) (message : String → String)
    (texts : List String) (found : Diagnostics) :
    (texts.foldl (fun found text => found.push rule path (message text)) found).ofRule rule =
      found.ofRule rule ++ texts.map fun text => ⟨rule, message text, path⟩ := by
  have h : ∀ text (found : Diagnostics), (found.push rule path (message text)).ofRule rule =
      found.ofRule rule ++ [⟨rule, message text, path⟩] := by
    intro text found
    rw [ofRule_push, if_pos rfl]
  rw [ofRule_foldl h, ← List.map_eq_flatMap]

end Diagnostics

open Diagnostics

/-! ## Checks and their subjects -/

section

variable {rule : Rule} (options : Options) (found : Diagnostics)

theorem ofRule_checkVersion (h : rule.subject ≠ .version) (document : Document) :
    (checkVersion document found).ofRule rule = found.ofRule rule := by
  unfold checkVersion
  split
  · exact ofRule_push_of_subject_ne h _ _ _
  · split
    · rfl
    · exact ofRule_push_of_subject_ne h _ _ _

theorem ofRule_checkInfo (h : rule.subject ≠ .info) (document : Document) :
    (checkInfo document found).ofRule rule = found.ofRule rule := by
  unfold checkInfo
  split
  · exact ofRule_push_of_subject_ne h _ _ _
  · exact ofRule_push_of_subject_ne h _ _ _
  · have ht (found : Diagnostics) (path message : String) :
        (found.push .missingInfoTitle path message).ofRule rule = found.ofRule rule :=
      ofRule_push_of_subject_ne h _ _ _
    have hv (found : Diagnostics) (path message : String) :
        (found.push .missingInfoVersion path message).ofRule rule = found.ofRule rule :=
      ofRule_push_of_subject_ne h _ _ _
    dsimp only
    split <;> split <;> simp only [ht, hv]

theorem ofRule_checkPathsField (h : rule.subject ≠ .pathsField) (document : Document) :
    (checkPathsField document found).ofRule rule = found.ofRule rule := by
  unfold checkPathsField
  split
  · exact ofRule_push_of_subject_ne h _ _ _
  · exact ofRule_push_of_subject_ne h _ _ _
  · split
    · exact ofRule_push_of_subject_ne h _ _ _
    · rfl

theorem subject_of_findingAt? {limit : Nat} {base : String} {location : Location}
    {name? : Option String} {finding : Diagnostic}
    (h : findingAt? limit base location name? = some finding) :
    finding.rule.subject = .schema := by
  unfold findingAt? at h
  split at h
  · obtain ⟨name, -, h⟩ := Option.bind_eq_some_iff.mp h
    unfold typeError? at h
    split at h
    · cases h
    · split at h
      · cases h
        rfl
      · cases h
        rfl
  · split at h
    · cases h
      rfl
    · cases h

theorem ofRule_walkSchema (h : rule.subject ≠ .schema) (schema : Option Schema) (path : String) :
    (walkSchema options schema path found).ofRule rule = found.ofRule rule := by
  rw [walkSchema_eq_append, ofRule_append, ofRule_ofList, List.append_right_eq_self,
    List.filter_eq_nil_iff]
  intro finding hf hr
  obtain ⟨node, -, hn⟩ := List.mem_filterMap.mp hf
  exact h (of_decide_eq_true hr ▸ subject_of_findingAt? hn)

theorem ofRule_checkComponents (h : rule.subject ≠ .schema) (document : Document) :
    (checkComponents document options found).ofRule rule = found.ofRule rule :=
  ofRule_foldl_of_silent (fun _ _ => ofRule_walkSchema options _ h _ _) _ found

theorem ofRule_checkResponse (h : rule.subject ≠ .schema) (context code : String)
    (response : Response) :
    (checkResponse options context code response found).ofRule rule = found.ofRule rule :=
  ofRule_foldl_of_silent (fun _ _ => ofRule_walkSchema options _ h _ _) _ found

theorem ofRule_checkTags (h : rule.subject ≠ .tags) (document : Document) :
    (checkTags document found).ofRule rule = found.ofRule rule := by
  simp only [checkTags]
  rw [ofRule_foldl_of_silent fun _ _ => ofRule_push_of_subject_ne h _ _ _,
    ofRule_foldl_of_silent fun _ _ => ofRule_push_of_subject_ne h _ _ _]

end

/-! ## Operations -/

/-- Some response has a code of success. -/
def hasSuccess (responses : Entries Response) : Bool :=
  successCodes.any fun code => (responses.lookup code).isSome

/-- What is found at responses themselves, their schemas aside. -/
def responseFindings (label context : String) : Option (Entries Response) → List Diagnostic
  | none => [⟨.missingResponses, s!"Missing responses for {label}", context ++ ".responses"⟩]
  | some responses =>
    if hasSuccess responses then []
    else
      [⟨.noSuccessResponse, s!"No success response (200/201) defined for {label}",
        context ++ ".responses"⟩]

/-- What is found at the operation under `key` itself, the schemas of its responses aside. -/
def Operation.findings (path key : String) (operation : Operation) : List Diagnostic :=
  let label := operation.method.label ++ " " ++ path
  let context := "paths." ++ path ++ "." ++ key
  responseFindings label context operation.responses ++
    (if operation.isUndocumented then
      [⟨.missingDocumentation, s!"Missing summary or description for {label}", context⟩]
    else []) ++
    if operation.tags.isEmpty then
      [⟨.missingOperationTags, s!"No tags defined for {label}", context ++ ".tags"⟩]
    else []

namespace Document

/-- What is found at all operations themselves, in their order. -/
def operationFindings (document : Document) : List Diagnostic :=
  document.placedOperations.flatMap fun (path, key, operation) => operation.findings path key

end Document

section

variable {rule : Rule} (options : Options) (found : Diagnostics)

theorem ofRule_push_if (condition : Prop) [Decidable condition] (other : Rule)
    (path message : String) :
    (if condition then found.push other path message else found).ofRule rule =
      found.ofRule rule ++
        (if condition then [⟨other, message, path⟩] else []).filter (·.rule = rule) := by
  by_cases h : condition
  · simp only [h, if_true, push_eq_append, ofRule_append, ofRule_ofList]
  · simp only [h, if_false, List.filter_nil, List.append_nil]

theorem ofRule_checkResponses (h : rule.subject ≠ .schema) (label context : String)
    (responses : Option (Entries Response)) :
    (checkResponses options label context responses found).ofRule rule =
      found.ofRule rule ++ (responseFindings label context responses).filter (·.rule = rule) := by
  cases responses with
  | none => rw [checkResponses, responseFindings, push_eq_append, ofRule_append, ofRule_ofList]
  | some responses =>
      have hr : (responses.foldl (fun found entry =>
          checkResponse options context entry.1 entry.2 found) found).ofRule rule =
            found.ofRule rule :=
        ofRule_foldl_of_silent (fun _ _ => ofRule_checkResponse options _ h _ _ _) _ found
      have hc : checkResponses options label context (some responses) found =
          let after := responses.foldl (fun found entry =>
            checkResponse options context entry.1 entry.2 found) found
          if hasSuccess responses then after
          else
            after.push .noSuccessResponse (context ++ ".responses")
              s!"No success response (200/201) defined for {label}" := rfl
      rw [hc, responseFindings]
      by_cases hs : hasSuccess responses
      · simp only [hs, if_true, hr, List.filter_nil, List.append_nil]
      · simp only [hs, if_false, Bool.false_eq_true, push_eq_append, ofRule_append, ofRule_ofList,
          hr]

theorem ofRule_checkOperation (h : rule.subject ≠ .schema) (path key : String)
    (operation : Operation) :
    (checkOperation options path key operation found).ofRule rule =
      found.ofRule rule ++ (operation.findings path key).filter (·.rule = rule) := by
  simp only [checkOperation, Operation.findings, ofRule_push_if, ofRule_checkResponses _ _ h,
    List.filter_append, List.append_assoc]

theorem ofRule_checkPathItem (hs : rule.subject ≠ .schema) (hp : rule.subject ≠ .path)
    (path : String) (item : PathItem) :
    (checkPathItem options path item found).ofRule rule =
      found.ofRule rule ++ item.operations.flatMap fun (key, operation) =>
        (operation.findings path key).filter (·.rule = rule) := by
  simp only [checkPathItem]
  rw [ofRule_foldl fun entry found =>
    ofRule_checkOperation options found hs path entry.1 entry.2]
  congr 1
  split
  · rfl
  · exact ofRule_push_of_subject_ne hp _ _ _

theorem ofRule_checkPaths (hs : rule.subject ≠ .schema) (hp : rule.subject ≠ .path)
    (document : Document) :
    (checkPaths document options found).ofRule rule =
      found.ofRule rule ++ document.operationFindings.filter (·.rule = rule) := by
  rw [checkPaths, ofRule_foldl fun entry found =>
    ofRule_checkPathItem options found hs hp entry.1 entry.2]
  simp only [Document.operationFindings, Document.placedOperations, List.flatMap_assoc,
    List.filter_flatMap, List.flatMap_map]

end

theorem subject_of_mem_responseFindings {label context : String}
    {responses : Option (Entries Response)} {finding : Diagnostic}
    (h : finding ∈ responseFindings label context responses) :
    finding.rule.subject = .operation := by
  unfold responseFindings at h
  split at h
  · obtain rfl := List.mem_singleton.mp h
    rfl
  · split at h
    · cases h
    · obtain rfl := List.mem_singleton.mp h
      rfl

theorem Operation.subject_of_mem_findings {path key : String} {operation : Operation}
    {finding : Diagnostic} (h : finding ∈ operation.findings path key) :
    finding.rule.subject = .operation := by
  have of_mem_if {condition : Bool} {only : Diagnostic}
      (hs : only.rule.subject = .operation) (h : finding ∈ if condition then [only] else []) :
      finding.rule.subject = .operation := by
    cases condition with
    | true =>
        obtain rfl := List.mem_singleton.mp h
        exact hs
    | false => cases h
  rcases List.mem_append.mp h with h | h
  · rcases List.mem_append.mp h with h | h
    · exact subject_of_mem_responseFindings h
    · exact of_mem_if rfl h
  · exact of_mem_if rfl h

theorem Document.filter_operationFindings_of_subject_ne {rule : Rule}
    (h : rule.subject ≠ .operation) (document : Document) :
    document.operationFindings.filter (·.rule = rule) = [] := by
  rw [List.filter_eq_nil_iff]
  intro finding hf hr
  obtain ⟨placed, -, hp⟩ := List.mem_flatMap.mp hf
  exact h (of_decide_eq_true hr ▸ Operation.subject_of_mem_findings hp)

/-! ## Whole documents -/

theorem Appends.ofRule {check : Diagnostics → Diagnostics} (h : Appends check)
    (found : Diagnostics) (rule : Rule) :
    (check found).ofRule rule = found.ofRule rule ++ (check {}).ofRule rule := by
  rw [h.eq_append found, ofRule_append]

section

variable {rule : Rule} (options : Options) (document : Document)

theorem ofRule_checkDocument_of_operation (h : rule.subject = .operation) :
    (checkDocument document options {}).ofRule rule =
      document.operationFindings.filter (·.rule = rule) := by
  have hne {subject : Subject} (hs : subject ≠ .operation) : rule.subject ≠ subject :=
    fun he => hs (he ▸ h)
  rw [checkDocument, ofRule_checkTags _ (hne (by decide)),
    ofRule_checkPaths options _ (hne (by decide)) (hne (by decide)),
    ofRule_checkComponents options _ (hne (by decide)), checkRoot,
    ofRule_checkPathsField _ (hne (by decide)), ofRule_checkInfo _ (hne (by decide)),
    ofRule_checkVersion _ (hne (by decide)), ofRule_empty, List.nil_append]

theorem ofRule_checkDocument_of_info (h : rule.subject = .info) :
    (checkDocument document options {}).ofRule rule = (checkInfo document {}).ofRule rule := by
  have hne {subject : Subject} (hs : subject ≠ .info) : rule.subject ≠ subject :=
    fun he => hs (he ▸ h)
  rw [checkDocument, ofRule_checkTags _ (hne (by decide)),
    ofRule_checkPaths options _ (hne (by decide)) (hne (by decide)),
    Document.filter_operationFindings_of_subject_ne (hne (by decide)), List.append_nil,
    ofRule_checkComponents options _ (hne (by decide)), checkRoot,
    ofRule_checkPathsField _ (hne (by decide)), (appends_checkInfo document).ofRule,
    ofRule_checkVersion _ (hne (by decide)), ofRule_empty, List.nil_append]

theorem ofRule_checkDocument_of_tags (h : rule.subject = .tags) :
    (checkDocument document options {}).ofRule rule = (checkTags document {}).ofRule rule := by
  have hne {subject : Subject} (hs : subject ≠ .tags) : rule.subject ≠ subject :=
    fun he => hs (he ▸ h)
  rw [checkDocument, (appends_checkTags document).ofRule,
    ofRule_checkPaths options _ (hne (by decide)) (hne (by decide)),
    Document.filter_operationFindings_of_subject_ne (hne (by decide)), List.append_nil,
    ofRule_checkComponents options _ (hne (by decide)), checkRoot,
    ofRule_checkPathsField _ (hne (by decide)), ofRule_checkInfo _ (hne (by decide)),
    ofRule_checkVersion _ (hne (by decide)), ofRule_empty, List.nil_append]

end

end ApiLint
