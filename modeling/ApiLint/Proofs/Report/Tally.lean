import ApiLint.Proofs.Schema.Walk
import ApiLint.Report
import Mathlib.Algebra.BigOperators.Group.List.Basic
import Mathlib.Algebra.Group.Pi.Basic
import Mathlib.Algebra.Order.Group.Multiset
import Mathlib.Data.Multiset.Filter

/-! Findings without their order. Every check only appends, so the findings of several checks are
the sum of what each one finds on its own. -/

namespace ApiLint

/-! ## Every check appends -/

theorem Appends.push_if (condition : Prop) [Decidable condition] (rule : Rule)
    (path message : String) :
    Appends fun found => if condition then found.push rule path message else found :=
  .ite condition (.push rule path message) .id

section

variable (options : Options)

theorem appends_walkSchema (schema : Option Schema) (path : String) :
    Appends (walkSchema options schema path) :=
  ⟨_, walkSchema_eq_append options schema path⟩

theorem appends_checkComponents (document : Document) :
    Appends (checkComponents document options) :=
  .foldl _ fun _ => appends_walkSchema options _ _

theorem appends_checkResponse (context code : String) (response : Response) :
    Appends (checkResponse options context code response) :=
  .foldl _ fun _ => appends_walkSchema options _ _

theorem appends_checkResponses (label context : String) (responses : Option (Entries Response)) :
    Appends (checkResponses options label context responses) := by
  unfold checkResponses
  split
  · exact .push _ _ _
  · rename_i responses
    have hr : Appends fun found => responses.foldl (fun found entry =>
        checkResponse options context entry.1 entry.2 found) found :=
      .foldl _ fun _ => appends_checkResponse options _ _ _
    exact .comp (.ite _ .id (.push _ _ _)) hr

theorem appends_checkOperation (path key : String) (operation : Operation) :
    Appends (checkOperation options path key operation) := by
  have hr := appends_checkResponses options (operation.method.label ++ " " ++ path)
    ("paths." ++ path ++ "." ++ key) operation.responses
  exact (Appends.push_if _ .missingOperationTags _ _).comp
    ((Appends.push_if _ .missingDocumentation _ _).comp hr)

theorem appends_checkPathItem (path : String) (item : PathItem) :
    Appends (checkPathItem options path item) := by
  have ho : Appends fun found => item.operations.foldl (fun found entry =>
      checkOperation options path entry.1 entry.2 found) found :=
    .foldl _ fun _ => appends_checkOperation options _ _ _
  exact ho.comp (.ite _ .id (.push _ _ _))

theorem appends_checkPaths (document : Document) : Appends (checkPaths document options) :=
  .foldl _ fun _ => appends_checkPathItem options _ _

end

/-! ## Sums of findings -/

namespace Diagnostics

/-- How often each finding was made, by severity. -/
def tally (found : Diagnostics) : Severity → Multiset Diagnostic :=
  fun severity => found.ofSeverity severity

theorem tally_eq_iff {found other : Diagnostics} :
    found.tally = other.tally ↔
      ∀ severity, (found.ofSeverity severity).Perm (other.ofSeverity severity) := by
  simp only [funext_iff, tally, Multiset.coe_eq_coe]

@[simp] theorem tally_append (before after : Diagnostics) :
    (before ++ after).tally = before.tally + after.tally := by
  funext severity
  rw [Pi.add_apply, tally, ofSeverity_append, ← Multiset.coe_add]
  rfl

end Diagnostics

namespace Appends

variable {found other : Diagnostics}

theorem tally {check : Diagnostics → Diagnostics} (h : Appends check) (found : Diagnostics) :
    (check found).tally = found.tally + (check {}).tally := by
  rw [h.eq_append found, Diagnostics.tally_append]

theorem tally_eq {first second : Diagnostics → Diagnostics} (hf : Appends first)
    (hs : Appends second) (h : (first {}).tally = (second {}).tally)
    (ho : found.tally = other.tally) : (first found).tally = (second other).tally := by
  rw [hf.tally, hs.tally, h, ho]

theorem tally_foldl {α : Type} {check : Diagnostics → α → Diagnostics}
    (h : ∀ item, Appends (check · item)) (items : List α) (found : Diagnostics) :
    (items.foldl check found).tally =
      found.tally + (items.map fun item => (check {} item).tally).sum := by
  induction items generalizing found with
  | nil => rw [List.foldl_nil, List.map_nil, List.sum_nil, add_zero]
  | cons item rest ih =>
      rw [List.foldl_cons, ih, (h item).tally found, List.map_cons, List.sum_cons, add_assoc]

/-- The order in which items are checked makes no difference. -/
theorem tally_foldl_eq {α : Type} {check : Diagnostics → α → Diagnostics}
    (h : ∀ item, Appends (check · item)) {items others : List α}
    (hp : (items.map fun item => (check {} item).tally).Perm
      (others.map fun item => (check {} item).tally))
    (ho : found.tally = other.tally) :
    (items.foldl check found).tally = (others.foldl check other).tally := by
  rw [tally_foldl h, tally_foldl h, ho, hp.sum_eq]

end Appends

theorem tally_walkSchema (options : Options) (schema : Option Schema) (path : String)
    (severity : Severity) :
    (walkSchema options schema path {}).tally severity =
      ((Multiset.ofList (Schema.nodeTypes schema)).filterMap fun node =>
        findingAt? options.maxSchemaDepth path node.1 node.2).filter (·.severity = severity) := by
  rw [walkSchema_eq_append, Diagnostics.empty_append, Diagnostics.tally,
    Diagnostics.ofSeverity_ofList, Multiset.filterMap_coe, Multiset.filter_coe]

end ApiLint
