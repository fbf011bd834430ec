import ApiLint.Check.Root
import ApiLint.Check.Tags

/-! Findings as a monoid: a check that appends turns what was found before into the same followed by
its own findings. -/

namespace ApiLint.Diagnostics

/-- The findings of one severity, in order. -/
def ofSeverity (found : Diagnostics) : Severity → List Diagnostic
  | .error => found.errors.toList
  | .warning => found.warnings.toList

/-- Findings sorted by severity, each kind in the given order. -/
def ofList (findings : List Diagnostic) : Diagnostics where
  errors := (findings.filter (·.severity = .error)).toArray
  warnings := (findings.filter (·.severity = .warning)).toArray

instance : Append Diagnostics where
  append before after := ⟨before.errors ++ after.errors, before.warnings ++ after.warnings⟩

theorem ext_ofSeverity {found other : Diagnostics}
    (h : ∀ severity, found.ofSeverity severity = other.ofSeverity severity) : found = other := by
  obtain ⟨errors, warnings⟩ := found
  obtain ⟨errors', warnings'⟩ := other
  have he : errors = errors' := Array.toList_inj.mp (h .error)
  have hw : warnings = warnings' := Array.toList_inj.mp (h .warning)
  rw [he, hw]

@[simp] theorem ofSeverity_empty (severity : Severity) :
    ({} : Diagnostics).ofSeverity severity = [] := by
  cases severity <;> rfl

@[simp] theorem ofSeverity_append (before after : Diagnostics) (severity : Severity) :
    (before ++ after).ofSeverity severity =
      before.ofSeverity severity ++ after.ofSeverity severity := by
  cases severity with
  | error => exact Array.toList_append
  | warning => exact Array.toList_append

@[simp] theorem ofSeverity_ofList (findings : List Diagnostic) (severity : Severity) :
    (ofList findings).ofSeverity severity = findings.filter (·.severity = severity) := by
  cases severity <;> rfl

theorem ofSeverity_push (found : Diagnostics) (rule : Rule) (path message : String)
    (severity : Severity) :
    (found.push rule path message).ofSeverity severity =
      found.ofSeverity severity ++ [⟨rule, message, path⟩].filter (·.severity = severity) := by
  cases h : rule.severity <;> cases severity <;>
    simp [push, ofSeverity, Diagnostic.severity, h]

/-- A finding is never lost. -/
theorem push_ne (found : Diagnostics) (rule : Rule) (path message : String) :
    found.push rule path message ≠ found := by
  intro h
  have hs := congrArg (·.ofSeverity rule.severity) h
  simp [ofSeverity_push, Diagnostic.severity] at hs

theorem push_eq_append (found : Diagnostics) (rule : Rule) (path message : String) :
    found.push rule path message = found ++ ofList [⟨rule, message, path⟩] := by
  apply ext_ofSeverity
  intro severity
  rw [ofSeverity_push, ofSeverity_append, ofSeverity_ofList]

@[simp] theorem append_empty (found : Diagnostics) : found ++ {} = found :=
  ext_ofSeverity fun severity => by simp

@[simp] theorem empty_append (found : Diagnostics) : {} ++ found = found :=
  ext_ofSeverity fun severity => by simp

theorem append_assoc (first second third : Diagnostics) :
    first ++ second ++ third = first ++ (second ++ third) :=
  ext_ofSeverity fun severity => by simp

@[simp] theorem ofList_nil : ofList [] = {} := rfl

theorem ofList_append (findings more : List Diagnostic) :
    ofList (findings ++ more) = ofList findings ++ ofList more :=
  ext_ofSeverity fun severity => by simp

theorem foldl_eq_append {α : Type} {check : Diagnostics → α → Diagnostics}
    {findings : α → List Diagnostic} (items : List α)
    (h : ∀ item ∈ items, ∀ found, check found item = found ++ ofList (findings item))
    (found : Diagnostics) :
    items.foldl check found = found ++ ofList (items.flatMap findings) := by
  induction items generalizing found with
  | nil => simp
  | cons item rest ih =>
      rw [List.foldl_cons, List.flatMap_cons, ofList_append, ← append_assoc,
        ← h item List.mem_cons_self]
      exact ih (fun other ho => h other (List.mem_cons_of_mem _ ho)) _

/-- Items with the same checks lead to the same findings. -/
theorem foldl_eq_of_map_eq {α β : Type} {check : Diagnostics → α → Diagnostics}
    {check' : Diagnostics → β → Diagnostics} {items : List α} {others : List β}
    (h : (items.map fun item found => check found item) =
      others.map fun item found => check' found item) (found : Diagnostics) :
    items.foldl check found = others.foldl check' found := by
  have hf := congrArg (List.foldl (fun found step => step found) found) h
  rwa [List.foldl_map, List.foldl_map] at hf

/-- Items that are checked one after the other have to meet the conditions of all. -/
theorem foldl_iff {α : Type} (holds : Diagnostics → Prop) {check : Diagnostics → α → Diagnostics}
    {condition : α → Prop}
    (h : ∀ item found, holds (check found item) ↔ holds found ∧ condition item) (items : List α)
    (found : Diagnostics) :
    holds (items.foldl check found) ↔ holds found ∧ ∀ item ∈ items, condition item := by
  induction items generalizing found with
  | nil => simp
  | cons item rest ih => rw [List.foldl_cons, ih, h, and_assoc, List.forall_mem_cons]

end ApiLint.Diagnostics

namespace ApiLint

/-- A check that looks at nothing that was found before it: it puts the same findings behind
anything, each one into the list of its severity. -/
def Appends (check : Diagnostics → Diagnostics) : Prop :=
  ∃ findings, ∀ found, check found = found ++ .ofList findings

namespace Appends

theorem eq_append {check : Diagnostics → Diagnostics} (h : Appends check) (found : Diagnostics) :
    check found = found ++ check {} := by
  obtain ⟨findings, h⟩ := h
  rw [h found, h {}, Diagnostics.empty_append]

theorem id : Appends fun found => found :=
  ⟨[], fun found => (Diagnostics.append_empty found).symm⟩

theorem push (rule : Rule) (path message : String) :
    Appends fun found => found.push rule path message :=
  ⟨[⟨rule, message, path⟩], fun found => Diagnostics.push_eq_append found rule path message⟩

theorem comp {first second : Diagnostics → Diagnostics} (hs : Appends second)
    (hf : Appends first) : Appends fun found => second (first found) := by
  obtain ⟨before, hf⟩ := hf
  obtain ⟨after, hs⟩ := hs
  refine ⟨before ++ after, fun found => ?_⟩
  change second (first found) = _
  rw [hs, hf, Diagnostics.append_assoc, Diagnostics.ofList_append]

theorem ite (condition : Prop) [Decidable condition] {first second : Diagnostics → Diagnostics}
    (hf : Appends first) (hs : Appends second) :
    Appends fun found => if condition then first found else second found := by
  by_cases h : condition
  · simpa only [h, if_true] using hf
  · simpa only [h, if_false] using hs

theorem foldl {α : Type} {check : Diagnostics → α → Diagnostics} (items : List α)
    (h : ∀ item, Appends (check · item)) : Appends fun found => items.foldl check found := by
  induction items with
  | nil => exact id
  | cons item rest ih => exact ih.comp (h item)

/-- What is found at each item comes in the order of the items. -/
theorem ofSeverity_foldl {α : Type} {check : Diagnostics → α → Diagnostics}
    (h : ∀ item, Appends (check · item)) (items : List α) (found : Diagnostics)
    (severity : Severity) :
    (items.foldl check found).ofSeverity severity =
      found.ofSeverity severity ++
        items.flatMap fun item => (check {} item).ofSeverity severity := by
  induction items generalizing found with
  | nil => simp
  | cons item rest ih =>
      rw [List.foldl_cons, ih, (h item).eq_append found, Diagnostics.ofSeverity_append,
        List.flatMap_cons, List.append_assoc]

end Appends

theorem appends_checkVersion (document : Document) : Appends (checkVersion document) := by
  unfold checkVersion
  split
  · exact .push _ _ _
  · exact .ite _ .id (.push _ _ _)

theorem appends_checkInfo (document : Document) : Appends (checkInfo document) := by
  unfold checkInfo
  split
  · exact .push _ _ _
  · exact .push _ _ _
  · exact .comp (.ite _ .id (.push _ _ _)) (.ite _ .id (.push _ _ _))

theorem appends_checkPathsField (document : Document) : Appends (checkPathsField document) := by
  unfold checkPathsField
  split
  · exact .push _ _ _
  · exact .push _ _ _
  · exact .ite _ (.push _ _ _) .id

theorem appends_checkRoot (document : Document) : Appends (checkRoot document) :=
  (appends_checkPathsField document).comp
    ((appends_checkInfo document).comp (appends_checkVersion document))

theorem appends_checkTags (document : Document) : Appends (checkTags document) := by
  have each (rule : Rule) (tags : List String) (message : String → String) :
      Appends fun found =>
        tags.foldl (fun found tag => found.push rule "tags" (message tag)) found :=
    .foldl tags fun tag => .push rule "tags" (message tag)
  exact (each .undeclaredTag _ _).comp (each .unusedTag _ _)

end ApiLint
