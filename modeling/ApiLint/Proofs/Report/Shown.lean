import ApiLint.Proofs.Json.Written
import ApiLint.Proofs.Report.Text
import ApiLint.Proofs.Stats

/-! What the two forms of a report have to show, in words of their own: the members of the JSON form
and the lines of the text form. -/

namespace ApiLint

/-! ## The JSON form -/

/-- The members of a finding. -/
structure Diagnostic.ShownBy (finding : Diagnostic) (value : Json) : Prop where
  rule : value.get? "rule" = some (.string finding.rule.name)
  message : value.get? "message" = some (.string finding.message)
  path : value.get? "path" = some (.string finding.path)

theorem Diagnostic.shownBy_toJson (finding : Diagnostic) : finding.ShownBy finding.toJson :=
  ⟨rfl, rfl, rfl⟩

theorem Diagnostic.counted_toJson (finding : Diagnostic) : Json.Counted finding.toJson := by
  refine .object ?_ ?_
  · simp
  · simp [Json.Counted.string]

theorem Diagnostic.nesting_toJson_le (finding : Diagnostic) : finding.toJson.nesting ≤ 1 :=
  Json.nesting_object_le_iff.mpr (by simp [Json.nesting])

theorem HttpMethod.token_inj {method other : HttpMethod} (h : method.token = other.token) :
    method = other :=
  HttpMethod.label_inj (congrArg (String.map Char.toUpper) h)

namespace Stats

/-- The members of the counts. Only methods that occur have one. -/
structure ShownBy (stats : Stats) (value : Json) : Prop where
  endpointCount : value.get? "endpointCount" = some (.number (.int stats.endpointCount))
  perMethodCount : value.get? "perMethodCount" = some (.object
    (stats.perMethodCount.map fun (method, count) => (method.token, .number (.int count))))
  tagCount : value.get? "tagCount" = some (.number (.int stats.tagCount))
  schemaCount : value.get? "schemaCount" = some (.number (.int stats.schemaCount))
  responseCodes : value.get? "responseCodesUsed" =
    some (.array (stats.responseCodes.map Json.string))

theorem shownBy_toJson (stats : Stats) : stats.ShownBy stats.toJson := ⟨rfl, rfl, rfl, rfl, rfl⟩

/-- Every count fits a machine word. -/
structure FitsWord (stats : Stats) : Prop where
  endpointCount : stats.endpointCount < Number.wordLimit
  tagCount : stats.tagCount < Number.wordLimit
  schemaCount : stats.schemaCount < Number.wordLimit

instance (stats : Stats) : Decidable stats.FitsWord :=
  decidable_of_iff (stats.endpointCount < Number.wordLimit ∧ stats.tagCount < Number.wordLimit ∧
      stats.schemaCount < Number.wordLimit)
    ⟨fun h => ⟨h.1, h.2.1, h.2.2⟩, fun h => ⟨h.endpointCount, h.tagCount, h.schemaCount⟩⟩

/-- A method has no more operations than there are. -/
theorem snd_le_endpointCount {document : Document} {entry : HttpMethod × Nat}
    (h : entry ∈ (ofDocument document).perMethodCount) :
    entry.2 ≤ (ofDocument document).endpointCount := by
  rw [(mem_perMethodCount_iff.mp h).1]
  exact List.countP_le_length

theorem counted_toJson {document : Document} (h : (ofDocument document).FitsWord) :
    Json.Counted (ofDocument document).toJson := by
  refine .object (by simp) ?_
  simp only [List.forall_mem_cons]
  refine ⟨.count h.endpointCount, .object ?_ ?_, .count h.tagCount, .count h.schemaCount,
    .array ?_, List.forall_mem_nil _⟩
  · have hm := (nodup_methods document).map fun _ _ => HttpMethod.token_inj
    rw [List.map_map] at hm ⊢
    exact hm
  · exact List.forall_mem_map.mpr fun entry he =>
      .count ((snd_le_endpointCount he).trans_lt h.endpointCount)
  · exact List.forall_mem_map.mpr fun code _ => .string code

theorem nesting_toJson_le (stats : Stats) : stats.toJson.nesting ≤ 2 := by
  refine Json.nesting_object_le_iff.mpr ?_
  simp only [List.forall_mem_cons]
  refine ⟨Nat.zero_le _, Json.nesting_object_le_iff.mpr ?_, Nat.zero_le _, Nat.zero_le _,
    Json.nesting_array_le_iff.mpr ?_, List.forall_mem_nil _⟩
  · exact List.forall_mem_map.mpr fun _ _ => Nat.le_refl 0
  · exact List.forall_mem_map.mpr fun _ _ => Nat.le_refl 0

end Stats

namespace Report

/-- The members of a report. -/
structure ShownBy (report : Report) (value : Json) : Prop where
  isValid : ∃ valid, value.get? "isValid" = some (.bool valid) ∧ (valid ↔ report.errors = [])
  errors : ∃ values, value.get? "errors" = some (.array values) ∧
    List.Forall₂ Diagnostic.ShownBy report.errors values
  warnings : ∃ values, value.get? "warnings" = some (.array values) ∧
    List.Forall₂ Diagnostic.ShownBy report.warnings values
  stats : ∃ counts, value.get? "stats" = some counts ∧ report.stats.ShownBy counts

theorem forall₂_shownBy (findings : List Diagnostic) :
    List.Forall₂ Diagnostic.ShownBy findings (findings.map Diagnostic.toJson) :=
  List.forall₂_map_right_iff.mpr (List.forall₂_same.mpr fun finding _ => finding.shownBy_toJson)

theorem shownBy_toJson (report : Report) : report.ShownBy report.toJson where
  isValid := ⟨report.isValid, rfl, List.isEmpty_iff⟩
  errors := ⟨_, rfl, forall₂_shownBy _⟩
  warnings := ⟨_, rfl, forall₂_shownBy _⟩
  stats := ⟨_, rfl, report.stats.shownBy_toJson⟩

theorem counted_findings (findings : List Diagnostic) :
    Json.Counted (.array (findings.map Diagnostic.toJson)) :=
  .array (List.forall_mem_map.mpr fun finding _ => finding.counted_toJson)

theorem counted_toJson {document : Document} {options : Options}
    (h : (Stats.ofDocument document).FitsWord) :
    Json.Counted (validate document options).toJson := by
  refine .object (by simp) ?_
  simp only [List.forall_mem_cons]
  exact ⟨.bool _, counted_findings _, counted_findings _, Stats.counted_toJson h,
    List.forall_mem_nil _⟩

theorem nesting_findings_le (findings : List Diagnostic) :
    (Json.array (findings.map Diagnostic.toJson)).nesting ≤ 2 :=
  Json.nesting_array_le_iff.mpr (List.forall_mem_map.mpr fun finding _ => finding.nesting_toJson_le)

theorem nesting_toJson_le (report : Report) : report.toJson.nesting ≤ 3 := by
  refine Json.nesting_object_le_iff.mpr ?_
  simp only [List.forall_mem_cons]
  exact ⟨Nat.zero_le _, nesting_findings_le _, nesting_findings_le _,
    report.stats.nesting_toJson_le, List.forall_mem_nil _⟩

/-! ## The text form -/

/-- A section has a numbered line for each of its findings. Without findings it has no lines. -/
inductive IsSection (title : String) : List Diagnostic → List String → Prop where
  | empty : IsSection title [] []
  | numbered {findings items} : findings ≠ [] → items.length = findings.length →
      (∀ index finding, findings[index]? = some finding →
        items[index]? = some ("  " ++ toString (index + 1) ++ ". " ++ finding.message)) →
      IsSection title findings
        ("" :: (title ++ " (" ++ toString findings.length ++ "):") :: items)

/-- Items with commas between them, or `none` where that leaves nothing to see. -/
inductive IsListing (items : List String) : String → Prop where
  | none : ", ".intercalate items = "" → IsListing items "none"
  | items : ", ".intercalate items ≠ "" → IsListing items (", ".intercalate items)

/-- A count and its noun. -/
inductive IsAmount (noun : String) : Nat → String → Prop where
  | one : IsAmount noun 1 ("1 " ++ noun)
  | many {count} : count ≠ 1 → IsAmount noun count (toString count ++ " " ++ noun ++ "s")

/-- A report is valid if it has no errors. -/
inductive IsVerdict (report : Report) : String → Prop where
  | valid {warnings} : report.errors = [] → IsAmount "warning" report.warnings.length warnings →
      IsVerdict report ("Result: VALID (0 errors, " ++ warnings ++ ")")
  | invalid {errors warnings} : report.errors ≠ [] →
      IsAmount "error" report.errors.length errors →
      IsAmount "warning" report.warnings.length warnings →
      IsVerdict report ("Result: INVALID (" ++ errors ++ ", " ++ warnings ++ ")")

/-- The lines of a report on what `source` holds. -/
inductive HasLines (report : Report) (source : String) : List String → Prop where
  | intro {errors warnings methods codes verdict} :
      IsSection "Errors" report.errors errors → IsSection "Warnings" report.warnings warnings →
      IsListing (report.stats.perMethodCount.map Stats.methodText) methods →
      IsListing report.stats.responseCodes codes → IsVerdict report verdict →
      HasLines report source (["OpenAPI validation: " ++ source] ++ errors ++ warnings ++
        ["", "Stats:",
          "  Endpoints: " ++ toString report.stats.endpointCount,
          "  Methods: " ++ methods,
          "  Response codes: " ++ codes,
          "  Schemas: " ++ toString report.stats.schemaCount,
          "  Tags: " ++ toString report.stats.tagCount,
          "", verdict])

theorem isSection_sectionLines (title : String) (findings : List Diagnostic) :
    IsSection title findings (sectionLines title findings) := by
  cases findings with
  | nil => exact .empty
  | cons finding rest =>
      rw [sectionLines_cons]
      refine .numbered (List.cons_ne_nil _ _) (by simp) fun index other h => ?_
      rw [List.getElem?_map, List.getElem?_zipIdx, h, Nat.zero_add]
      rfl

theorem isListing_listText (items : List String) : IsListing items (Stats.listText items) := by
  rw [Stats.listText]
  split
  · exact .none ‹_›
  · exact .items ‹_›

theorem isAmount_counted (count : Nat) (noun : String) :
    IsAmount noun count (counted count noun) := by
  rw [counted]
  split
  · subst count
    rw [String.append_empty]
    exact .one
  · exact .many ‹_›

theorem isVerdict_verdict (report : Report) : IsVerdict report report.verdict := by
  rw [verdict]
  split
  · rename_i h
    have he : report.errors = [] := List.isEmpty_iff.mp h
    rw [he]
    exact .valid he (isAmount_counted _ _)
  · rename_i h
    have he : report.errors ≠ [] := mt List.isEmpty_iff.mpr h
    exact .invalid he (isAmount_counted _ _) (isAmount_counted _ _)

theorem hasLines_lines (report : Report) (source : String) :
    report.HasLines source (report.lines source) := by
  have h : report.HasLines source _ := .intro (isSection_sectionLines "Errors" report.errors)
    (isSection_sectionLines "Warnings" report.warnings)
    (isListing_listText (report.stats.perMethodCount.map Stats.methodText))
    (isListing_listText report.stats.responseCodes) report.isVerdict_verdict
  rw [lines_eq, Stats.lines_eq]
  simpa using h

end Report

end ApiLint
