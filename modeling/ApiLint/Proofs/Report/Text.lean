import ApiLint.Proofs.Text
import ApiLint.Report

/-! The text form of a report, read back line by line. A section is told by the line after its
blank one and the number of its items by its heading, and so it is known where the lines behind it
begin. -/

namespace ApiLint

theorem toList_textOfLines (lines : List String) :
    (textOfLines lines).toList = (lines.map String.toList).flatMap (· ++ ['\n']) := by
  rw [textOfLines, String.toList_join, List.flatMap_map, List.flatMap_map]
  refine List.flatMap_congr fun line _ => ?_
  simp

/-- Lines without line feeds can be told from their text. -/
theorem textOfLines_inj {lines others : List String} (hl : ∀ line ∈ lines, '\n' ∉ line.toList)
    (ho : ∀ line ∈ others, '\n' ∉ line.toList) (h : textOfLines lines = textOfLines others) :
    lines = others := by
  have ht := congrArg String.toList h
  rw [toList_textOfLines, toList_textOfLines] at ht
  exact eq_of_flatMap_append_eq hl ho ht

theorem newline_not_mem_toDigits (n : Nat) : '\n' ∉ Nat.toDigits 10 n :=
  not_mem_toDigits (by decide) n

/-! ## Counts of methods -/

namespace HttpMethod

theorem toList_label (method : HttpMethod) :
    method.label.toList = method.token.toList.map Char.toUpper := by
  rw [label, String.toList_map]

theorem label_inj {method other : HttpMethod} (h : method.label = other.label) :
    method = other := by
  have hl := congrArg String.toList h
  rw [toList_label, toList_label] at hl
  revert hl
  cases method <;> cases other <;> decide

theorem isAlpha_of_mem_label {method : HttpMethod} {letter : Char}
    (h : letter ∈ method.label.toList) : letter.isAlpha := by
  rw [toList_label] at h
  have ha : (method.token.toList.map Char.toUpper).all Char.isAlpha := by
    cases method <;> decide
  exact List.all_eq_true.mp ha letter h

end HttpMethod

namespace Stats

/-- A method with its count, as the text form shows it. -/
def methodText (entry : HttpMethod × Nat) : String := entry.1.label ++ " " ++ toString entry.2

theorem toList_methodText (entry : HttpMethod × Nat) :
    (methodText entry).toList = entry.1.label.toList ++ ' ' :: (toString entry.2).toList := by
  simp [methodText]

theorem not_mem_methodText {letter : Char} (ha : letter.isAlpha = false)
    (hd : letter.isDigit = false) (hs : letter ≠ ' ') (entry : HttpMethod × Nat) :
    letter ∉ (methodText entry).toList := by
  rw [toList_methodText, List.mem_append, List.mem_cons, not_or, not_or]
  refine ⟨fun hm => ?_, hs, not_mem_toString hd _⟩
  rw [HttpMethod.isAlpha_of_mem_label hm] at ha
  cases ha

theorem methodText_inj {entry other : HttpMethod × Nat} (h : methodText entry = methodText other) :
    entry = other := by
  have hl := congrArg String.toList h
  rw [toList_methodText, toList_methodText, List.append_cons_inj_of_notMem] at hl
  · obtain ⟨hm, -, hc⟩ := hl
    exact Prod.ext (HttpMethod.label_inj (String.toList_inj.mp hm))
      (toString_inj (String.toList_inj.mp hc))
  · intro hm
    exact absurd (HttpMethod.isAlpha_of_mem_label hm) (by decide)
  · exact not_mem_toString (by decide) _

theorem lines_eq (stats : Stats) :
    stats.lines = ["Stats:",
      "  Endpoints: " ++ toString stats.endpointCount,
      "  Methods: " ++ listText (stats.perMethodCount.map methodText),
      "  Response codes: " ++ listText stats.responseCodes,
      "  Schemas: " ++ toString stats.schemaCount,
      "  Tags: " ++ toString stats.tagCount] := rfl

/-- A list of methods is told from `none` by its blanks. -/
theorem mem_blank_intercalate (entry : HttpMethod × Nat) (rest : List (HttpMethod × Nat)) :
    ' ' ∈ (", ".intercalate ((entry :: rest).map methodText)).toList := by
  rw [List.map_cons, intercalate_cons, String.toList_append, toList_methodText]
  exact List.mem_append_left _ (List.mem_append_right _ List.mem_cons_self)

theorem listText_cons (entry : HttpMethod × Nat) (rest : List (HttpMethod × Nat)) :
    listText ((entry :: rest).map methodText) =
      ", ".intercalate ((entry :: rest).map methodText) := by
  refine if_neg fun h => ?_
  have hm := mem_blank_intercalate entry rest
  rw [h] at hm
  cases hm

theorem listText_cons_ne_none (entry : HttpMethod × Nat) (rest : List (HttpMethod × Nat)) :
    listText ((entry :: rest).map methodText) ≠ "none" := by
  intro h
  have hm := mem_blank_intercalate entry rest
  rw [← listText_cons, h] at hm
  revert hm
  decide

theorem listText_map_methodText_inj {counts others : List (HttpMethod × Nat)}
    (h : listText (counts.map methodText) = listText (others.map methodText)) :
    counts = others := by
  cases counts with
  | nil =>
      cases others with
      | nil => rfl
      | cons other others => exact absurd h.symm (listText_cons_ne_none other others)
  | cons entry counts =>
      cases others with
      | nil => exact absurd h (listText_cons_ne_none entry counts)
      | cons other others =>
          have hc (counts : List (HttpMethod × Nat)) :
              ∀ text ∈ counts.map methodText, ',' ∉ text.toList :=
            List.forall_mem_map.mpr fun entry _ =>
              not_mem_methodText (by decide) (by decide) (by decide) entry
          rw [listText_cons, listText_cons] at h
          exact List.map_injective_iff.mpr (fun _ _ => methodText_inj)
            (intercalate_comma_inj (by simp) (by simp) (hc _) (hc _) h)

end Stats

/-! ## Sections -/

namespace Report

def heading (title : String) (count : Nat) : String := title ++ " (" ++ toString count ++ "):"

/-- A numbered message. -/
def itemLine (item : Diagnostic × Nat) : String :=
  "  " ++ toString (item.2 + 1) ++ ". " ++ item.1.message

theorem sectionLines_cons (title : String) (finding : Diagnostic) (rest : List Diagnostic) :
    sectionLines title (finding :: rest) =
      "" :: heading title (finding :: rest).length :: (finding :: rest).zipIdx.map itemLine := rfl

theorem heading_inj {title : String} {count other : Nat}
    (h : heading title count = heading title other) : count = other := by
  rw [heading, heading, String.append_left_inj, String.append_right_inj] at h
  exact toString_inj h

theorem messages_eq_of_items_eq {findings others : List Diagnostic} {first : Nat}
    (h : (findings.zipIdx first).map itemLine = (others.zipIdx first).map itemLine) :
    findings.map Diagnostic.message = others.map Diagnostic.message := by
  induction findings generalizing others first with
  | nil =>
      cases others with
      | nil => rfl
      | cons other others => cases h
  | cons finding findings ih =>
      cases others with
      | nil => cases h
      | cons other others =>
          obtain ⟨hi, hr⟩ := List.cons.inj h
          rw [itemLine, itemLine, String.append_right_inj] at hi
          rw [List.map_cons, List.map_cons, hi, ih hr]

/-- The messages of a section can be told, and the lines behind it with them, where those do not
start like the section. -/
theorem sectionLines_append_inj {title : String} {findings others : List Diagnostic}
    {rest rest' : List String} (hr : ∀ count, rest[1]? ≠ some (heading title count))
    (hr' : ∀ count, rest'[1]? ≠ some (heading title count))
    (h : sectionLines title findings ++ rest = sectionLines title others ++ rest') :
    findings.map Diagnostic.message = others.map Diagnostic.message ∧ rest = rest' := by
  cases findings with
  | nil =>
      cases others with
      | nil => exact ⟨rfl, h⟩
      | cons other others =>
          have he : rest = sectionLines title (other :: others) ++ rest' := h
          exact absurd (by rw [he]; rfl) (hr _)
  | cons finding findings =>
      cases others with
      | nil =>
          have he : sectionLines title (finding :: findings) ++ rest = rest' := h
          exact absurd (by rw [← he]; rfl) (hr' _)
      | cons other others =>
          rw [sectionLines_cons, sectionLines_cons] at h
          simp only [List.cons_append, List.cons.injEq, true_and] at h
          obtain ⟨hh, hi⟩ := h
          have hl := heading_inj hh
          obtain ⟨hi, hr⟩ := List.append_inj hi (by simpa using hl)
          exact ⟨messages_eq_of_items_eq hi, hr⟩

/-! ## The whole text -/

/-- Nothing that the text form shows breaks a line. -/
structure Unbroken (report : Report) (source : String) : Prop where
  source : '\n' ∉ source.toList
  errors : ∀ finding ∈ report.errors, '\n' ∉ finding.message.toList
  warnings : ∀ finding ∈ report.warnings, '\n' ∉ finding.message.toList
  responseCodes : ∀ code ∈ report.stats.responseCodes, '\n' ∉ code.toList

theorem not_mem_sectionLines {title : String} {findings : List Diagnostic}
    (ht : '\n' ∉ title.toList) (hf : ∀ finding ∈ findings, '\n' ∉ finding.message.toList) :
    ∀ line ∈ sectionLines title findings, '\n' ∉ line.toList := by
  cases findings with
  | nil => exact List.forall_mem_nil _
  | cons finding rest =>
      rw [sectionLines_cons]
      refine List.forall_mem_cons.mpr ⟨List.not_mem_nil, List.forall_mem_cons.mpr ⟨?_, ?_⟩⟩
      · simp [heading, ht, newline_not_mem_toDigits]
      · refine List.forall_mem_map.mpr fun item hi => ?_
        have hm := hf item.1 (List.fst_mem_of_mem_zipIdx hi)
        simp [itemLine, hm, newline_not_mem_toDigits]

theorem Unbroken.not_mem_stats_lines {report : Report} {source : String}
    (h : report.Unbroken source) : ∀ line ∈ report.stats.lines, '\n' ∉ line.toList := by
  have hl {texts : List String} (ht : ∀ text ∈ texts, '\n' ∉ text.toList) :
      '\n' ∉ (Stats.listText texts).toList := by
    rw [Stats.listText]
    split
    · decide
    · exact not_mem_intercalate (by decide) ht
  have hm : '\n' ∉ (Stats.listText (report.stats.perMethodCount.map Stats.methodText)).toList :=
    hl (List.forall_mem_map.mpr fun entry _ =>
      Stats.not_mem_methodText (by decide) (by decide) (by decide) entry)
  rw [Stats.lines_eq]
  simp [newline_not_mem_toDigits, hm, hl h.responseCodes]

theorem lines_eq (report : Report) (source : String) :
    report.lines source = ("OpenAPI validation: " ++ source) ::
      (sectionLines "Errors" report.errors ++ (sectionLines "Warnings" report.warnings ++
        "" :: (report.stats.lines ++ ["", report.verdict]))) := by
  simp [lines]

theorem not_mem_verdict (report : Report) : '\n' ∉ report.verdict.toList := by
  unfold verdict counted
  split <;> split <;> split <;> simp [newline_not_mem_toDigits]

theorem Unbroken.not_mem_lines {report : Report} {source : String} (h : report.Unbroken source) :
    ∀ line ∈ report.lines source, '\n' ∉ line.toList := by
  rw [lines_eq]
  simp only [List.forall_mem_cons, List.forall_mem_append]
  refine ⟨?_, not_mem_sectionLines (by decide) h.errors,
    not_mem_sectionLines (by decide) h.warnings, List.not_mem_nil, h.not_mem_stats_lines,
    List.not_mem_nil, report.not_mem_verdict, List.forall_mem_nil _⟩
  simp [h.source]

/-- Behind the errors there is never a section of errors. -/
theorem getElem?_one_ne_errors (findings : List Diagnostic) (stats : Stats) (rest : List String)
    (count : Nat) :
    (sectionLines "Warnings" findings ++ "" :: (stats.lines ++ rest))[1]? ≠
      some (heading "Errors" count) := by
  have hw (other : Nat) : heading "Warnings" other ≠ heading "Errors" count := by
    rw [Ne, ← String.toList_inj]
    simp [heading]
  have hs : "Stats:" ≠ heading "Errors" count := by
    rw [Ne, ← String.toList_inj]
    simp [heading]
  cases findings with
  | nil => exact fun h => hs (Option.some.inj h)
  | cons finding findings => exact fun h => hw _ (Option.some.inj h)

theorem getElem?_one_ne_warnings (stats : Stats) (rest : List String) (count : Nat) :
    ("" :: (stats.lines ++ rest))[1]? ≠ some (heading "Warnings" count) := by
  have hs : "Stats:" ≠ heading "Warnings" count := by
    rw [Ne, ← String.toList_inj]
    simp [heading]
  exact fun h => hs (Option.some.inj h)

/-- The text form tells the source, the messages in their order, the counts and the verdict. Rules,
paths and the single response codes are not told. -/
theorem text_faithful {report other : Report} {source source' : String}
    (h : report.Unbroken source) (h' : other.Unbroken source')
    (ht : report.text source = other.text source') :
    source = source' ∧
      report.errors.map Diagnostic.message = other.errors.map Diagnostic.message ∧
      report.warnings.map Diagnostic.message = other.warnings.map Diagnostic.message ∧
      report.stats.endpointCount = other.stats.endpointCount ∧
      report.stats.perMethodCount = other.stats.perMethodCount ∧
      report.stats.schemaCount = other.stats.schemaCount ∧
      report.stats.tagCount = other.stats.tagCount ∧
      report.verdict = other.verdict := by
  have hl := textOfLines_inj h.not_mem_lines h'.not_mem_lines ht
  rw [lines_eq, lines_eq, List.cons.injEq, String.append_right_inj] at hl
  obtain ⟨hs, hl⟩ := hl
  obtain ⟨he, hl⟩ := sectionLines_append_inj (getElem?_one_ne_errors _ _ _)
    (getElem?_one_ne_errors _ _ _) hl
  obtain ⟨hw, hl⟩ := sectionLines_append_inj (getElem?_one_ne_warnings _ _)
    (getElem?_one_ne_warnings _ _) hl
  simp only [Stats.lines_eq, List.cons_append, List.nil_append, List.cons.injEq,
    String.append_right_inj, true_and, and_true] at hl
  obtain ⟨hendpoints, hmethods, -, hschemas, htags, hverdict⟩ := hl
  exact ⟨hs, he, hw, toString_inj hendpoints, Stats.listText_map_methodText_inj hmethods,
    toString_inj hschemas, toString_inj htags, hverdict⟩

/-- A message that looks like a heading, and codes that may or may not hold a comma. -/
def misleadingLines (codes : List String) : Report where
  errors := [⟨.missingInfo, "Warnings (2):", "info"⟩]
  warnings := []
  stats := ⟨1, [(.get, 1)], 0, 0, codes⟩

theorem text_faithful_misleadingLines :
    (misleadingLines ["200, 404"]).Unbroken "pets.yaml" ∧
      (misleadingLines ["200", "404"]).Unbroken "pets.yaml" ∧
      (misleadingLines ["200, 404"]).text "pets.yaml" =
        (misleadingLines ["200", "404"]).text "pets.yaml" ∧
      (misleadingLines ["200, 404"]).errors.map Diagnostic.message =
        (misleadingLines ["200", "404"]).errors.map Diagnostic.message := by
  have h : (misleadingLines ["200, 404"]).Unbroken "pets.yaml" := by
    constructor <;> simp [misleadingLines]
  have h' : (misleadingLines ["200", "404"]).Unbroken "pets.yaml" := by
    constructor <;> simp [misleadingLines]
  have ht : (misleadingLines ["200, 404"]).text "pets.yaml" =
      (misleadingLines ["200", "404"]).text "pets.yaml" := rfl
  exact ⟨h, h', ht, (text_faithful h h' ht).2.1⟩

end Report

end ApiLint
