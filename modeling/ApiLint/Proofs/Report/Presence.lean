import ApiLint.Proofs.Json.Reordering
import ApiLint.Proofs.Report.Rules
import ApiLint.Proofs.Text

/-! Which text fields are missed. A field is there as soon as it holds a scalar with a text that is
not empty, whatever the text says. -/

namespace ApiLint

open Diagnostics

/-! ## Texts of scalars -/

namespace Decimal

theorem positionalText_ne_empty (x : Decimal) : x.positionalText ≠ "" := by
  unfold positionalText
  dsimp only
  split
  · simp
  · split <;> simp

theorem scientificText_ne_empty (x : Decimal) : x.scientificText ≠ "" := by
  simp [scientificText]

theorem text_ne_empty (x : Decimal) (range : PositionalRange) : x.text range ≠ "" := by
  unfold text
  split
  · exact x.positionalText_ne_empty
  · exact x.scientificText_ne_empty

end Decimal

/-- Every number is written with at least one character. -/
theorem Number.text_ne_empty (number : Number) : number.text ≠ "" := by
  cases number with
  | int value =>
      cases value with
      | ofNat n => exact Nat.repr_ne_empty
      | negSucc n => simp [text, Int.toString_eq_repr, Int.repr]
  | float value =>
      intro h
      exact value.shortest.text_ne_empty _ (String.append_eq_empty_iff.mp h).2

namespace Json

/-- A field without a text: there is nothing, an empty text or a value that is no scalar. -/
inductive NoText : Option Json → Prop where
  | absent : NoText none
  | null : NoText (some .null)
  | empty : NoText (some (.string ""))
  | array (elements) : NoText (some (.array elements))
  | object (entries) : NoText (some (.object entries))

theorem noText_iff {value? : Option Json} : NoText value? ↔ value?.bind filledText? = none := by
  constructor
  · rintro (_ | _ | _ | _ | _) <;> rfl
  · intro h
    cases value? with
    | none => exact .absent
    | some value =>
        rw [Option.bind_some, filledText?] at h
        cases value with
        | null => exact .null
        | bool value => cases value <;> simp [scalarText?] at h
        | number number => exact absurd h (by simp [scalarText?, number.text_ne_empty])
        | string text =>
            have ht : text = "" := by simpa [scalarText?] using h
            exact ht ▸ .empty
        | array elements => exact .array elements
        | object entries => exact .object entries

end Json

/-! ## Operations and where they stand -/

theorem HttpMethod.Names.not_mem_dot {method : HttpMethod} {key : String} (h : method.Names key) :
    '.' ∉ key.toList := by
  intro hm
  have ht : '.' ∈ method.token.toList := h ▸ dot_mem_asciiLower hm
  revert ht
  cases method <;> decide

namespace Json

theorem HasOperation.not_mem_dot {value operation : Json} {path key : String} {method : HttpMethod}
    (h : value.HasOperation path key method operation) : '.' ∉ key.toList := by
  obtain ⟨-, -, -, hm⟩ := h
  exact hm.not_mem_dot

/-- A path and a key lead to one operation. -/
theorem HasOperation.eq {value operation other : Json} {path key : String}
    {method method' : HttpMethod} (hu : value.UniqueKeys)
    (h : value.HasOperation path key method operation)
    (h' : value.HasOperation path key method' other) : operation = other := by
  obtain ⟨hp, hi, ho, -⟩ := h
  obtain ⟨hp', hi', ho', -⟩ := h'
  obtain rfl := object.inj (Option.some.inj (hp.symm.trans hp'))
  have hpaths := hu.get? hp
  obtain rfl := object.inj (hpaths.eq_of_mem hi hi')
  exact (hpaths.entry hi).eq_of_mem ho ho'

end Json

/-- A key without a point is told from the path before it. -/
theorem operationPath_inj {path other key name : String} (hk : '.' ∉ key.toList)
    (hn : '.' ∉ name.toList)
    (h : "paths." ++ path ++ "." ++ key = "paths." ++ other ++ "." ++ name) :
    path = other ∧ key = name := by
  have hl : path.toList ++ '.' :: key.toList = other.toList ++ '.' :: name.toList := by
    simpa [String.append_assoc] using congrArg String.toList h
  -- If one path went on where the other ends, its rest would put a point into a key.
  have nothing_between {before after between : List Char} (hb : '.' ∉ before)
      (h : '.' :: before = between ++ '.' :: after) : between = [] := by
    cases between with
    | nil => rfl
    | cons _ rest =>
        have hr : before = rest ++ '.' :: after := (List.cons.inj h).2
        exact absurd (hr ▸ List.mem_append_right rest List.mem_cons_self) hb
  rcases List.append_eq_append_iff.mp hl with ⟨between, ho, hb⟩ | ⟨between, hp, hb⟩
  · obtain rfl := nothing_between hk hb
    exact ⟨String.toList_inj.mp (by simpa using ho.symm), String.toList_inj.mp (List.cons.inj hb).2⟩
  · obtain rfl := nothing_between hn hb
    exact ⟨String.toList_inj.mp (by simpa using hp),
      String.toList_inj.mp (List.cons.inj hb).2.symm⟩

/-! ## Findings -/

section

variable {rule : Rule} (document : Document) (options : Options)

theorem exists_error_iff (h : rule.severity = .error) :
    (∃ finding ∈ (validate document options).errors, finding.rule = rule) ↔
      (checkDocument document options {}).ofRule rule ≠ [] := by
  rw [ofRule, h, Ne, List.filter_eq_nil_iff]
  simp only [not_forall, decide_eq_true_eq, not_not, exists_prop]
  rfl

theorem exists_warning_at_iff (h : rule.severity = .warning) (path : String) :
    (∃ finding ∈ (validate document options).warnings, finding.rule = rule ∧ finding.path = path) ↔
      ∃ finding ∈ (checkDocument document options {}).ofRule rule, finding.path = path := by
  rw [ofRule, h]
  simp only [List.mem_filter, decide_eq_true_eq, and_assoc]
  rfl

theorem ofRule_missingInfoTitle {info : Info} (h : document.info = .present info) :
    (checkDocument document options {}).ofRule .missingInfoTitle =
      if info.title.isSome then []
      else [⟨.missingInfoTitle, "Missing required field: info.title", "info.title"⟩] := by
  rw [ofRule_checkDocument_of_info options document rfl]
  simp only [checkInfo, h]
  split <;> split <;> rfl

theorem ofRule_missingInfoVersion {info : Info} (h : document.info = .present info) :
    (checkDocument document options {}).ofRule .missingInfoVersion =
      if info.version.isSome then []
      else [⟨.missingInfoVersion, "Missing required field: info.version", "info.version"⟩] := by
  rw [ofRule_checkDocument_of_info options document rfl]
  simp only [checkInfo, h]
  split <;> split <;> rfl

end

theorem filter_missingDocumentation (operation : Operation) (path key : String) :
    (operation.findings path key).filter (·.rule = .missingDocumentation) =
      let label := operation.method.label ++ " " ++ path
      if operation.isUndocumented then
        [⟨.missingDocumentation, s!"Missing summary or description for {label}",
          "paths." ++ path ++ "." ++ key⟩]
      else [] := by
  have hr (label context : String) :
      (responseFindings label context operation.responses).filter
        (·.rule = .missingDocumentation) = [] := by
    unfold responseFindings
    split
    · rfl
    · split <;> rfl
  rw [Operation.findings, List.filter_append, List.filter_append, hr, List.nil_append]
  cases operation.isUndocumented <;> cases operation.tags.isEmpty <;> rfl

theorem exists_missingDocumentation_at_iff (document : Document) (options : Options)
    (place : String) :
    (∃ finding ∈ (validate document options).warnings, finding.rule = .missingDocumentation ∧
        finding.path = place) ↔
      ∃ path key operation, (path, key, operation) ∈ document.placedOperations ∧
        operation.isUndocumented ∧ "paths." ++ path ++ "." ++ key = place := by
  rw [exists_warning_at_iff _ _ rfl, ofRule_checkDocument_of_operation _ _ rfl,
    Document.operationFindings, List.filter_flatMap]
  simp only [filter_missingDocumentation, List.mem_flatMap, Prod.exists, List.mem_ite_nil_right,
    List.mem_singleton]
  constructor
  · intro h
    obtain ⟨_, ⟨path, key, operation, ho, hu, rfl⟩, hp⟩ := h
    exact ⟨path, key, operation, ho, hu, hp⟩
  · intro h
    obtain ⟨path, key, operation, ho, hu, hp⟩ := h
    exact ⟨_, ⟨path, key, operation, ho, hu, rfl⟩, hp⟩

/-! ## Missing texts -/

theorem Operation.isUndocumented_ofJson_iff {method : HttpMethod} {value : Json} :
    (ofJson method value).isUndocumented ↔
      Json.NoText (value.get? "summary") ∧ Json.NoText (value.get? "description") := by
  rw [isUndocumented, Bool.and_eq_true, Option.isNone_iff_eq_none, Option.isNone_iff_eq_none,
    Json.noText_iff, Json.noText_iff]
  rfl

/-- A text field is missed where it has no text: where it is absent, null, the empty text, an array
or an object. Any other value counts, a blank text, a number and a truth value among them. -/
theorem missingTexts_iff {value : Json} (hu : value.UniqueKeys) (options : Options) :
    (∀ info, value.get? "info" = some (.object info) →
      ((∃ finding ∈ (validate (.ofJson value) options).errors, finding.rule = .missingInfoTitle) ↔
          Json.NoText (info.lookup "title")) ∧
        ((∃ finding ∈ (validate (.ofJson value) options).errors,
            finding.rule = .missingInfoVersion) ↔
          Json.NoText (info.lookup "version"))) ∧
      ∀ path key method operation, value.HasOperation path key method operation →
        ((∃ finding ∈ (validate (.ofJson value) options).warnings,
            finding.rule = .missingDocumentation ∧
              finding.path = "paths." ++ path ++ "." ++ key) ↔
          Json.NoText (operation.get? "summary") ∧ Json.NoText (operation.get? "description")) := by
  constructor
  · intro info h
    have hp : (Document.ofJson value).info = .present (Info.ofJson (.object info)) :=
      Field.ofJson_eq_present_iff.mpr ⟨info, h, rfl⟩
    have hm (text? : Option String) (finding : Diagnostic) :
        (if text?.isSome then [] else [finding]) ≠ [] ↔ text? = none := by
      cases text? <;> simp
    constructor
    · rw [exists_error_iff _ _ rfl, ofRule_missingInfoTitle _ _ hp, hm, Json.noText_iff]
      rfl
    · rw [exists_error_iff _ _ rfl, ofRule_missingInfoVersion _ _ hp, hm, Json.noText_iff]
      rfl
  · intro path key method operation h
    rw [exists_missingDocumentation_at_iff, ← Operation.isUndocumented_ofJson_iff]
    constructor
    · intro hf
      obtain ⟨_, _, _, hm, hd, hp⟩ := hf
      obtain ⟨_, other, ho, rfl⟩ := Document.mem_placedOperations_ofJson_iff.mp hm
      obtain ⟨rfl, rfl⟩ := operationPath_inj ho.not_mem_dot h.not_mem_dot hp
      obtain rfl := h.eq hu ho
      exact hd
    · intro hd
      exact ⟨path, key, _, Document.mem_placedOperations_ofJson_iff.mpr ⟨_, _, h, rfl⟩, hd, rfl⟩

/-- A blank title counts; an empty summary and a description that is an object do not. -/
def blankTitle : Json :=
  .object [("info", .object [("title", .string " "), ("version", .bool false)]),
    ("paths", .object [("/pets", .object [
      ("get", .object [("summary", .string ""), ("description", .object [])])])])]

theorem missingTexts_iff_blankTitle :
    blankTitle.UniqueKeys ∧
      (¬∃ finding ∈ (validate (.ofJson blankTitle) ⟨64⟩).errors,
        finding.rule = .missingInfoTitle) ∧
      ∃ finding ∈ (validate (.ofJson blankTitle) ⟨64⟩).warnings,
        finding.rule = .missingDocumentation ∧ finding.path = "paths./pets.get" := by
  have hu : blankTitle.UniqueKeys := by simp [Json.UniqueKeys, blankTitle]
  have ho : blankTitle.HasOperation "/pets" "get" .get
      (.object [("summary", .string ""), ("description", .object [])]) :=
    .intro rfl List.mem_cons_self List.mem_cons_self
      (HttpMethod.ofKey?_eq_some_iff.mp (by decide +kernel))
  obtain ⟨hi, hp⟩ := missingTexts_iff hu ⟨64⟩
  refine ⟨hu, fun hf => ?_, (hp _ _ _ _ ho).mpr ⟨.empty, .object _⟩⟩
  exact absurd (Json.noText_iff.mp ((hi _ rfl).1.mp hf)) (by decide)

def listedInfo : Entries Json := [("title", .array [.string "Pets"]), ("version", .string "1")]

/-- A title that is an array, though neither null nor empty, is missed. -/
theorem missingInfoTitle_listedInfo :
    ¬((∃ finding ∈ (validate (.ofJson (.object [("info", .object listedInfo)])) ⟨64⟩).errors,
        finding.rule = .missingInfoTitle) ↔
      listedInfo.lookup "title" = none ∨ listedInfo.lookup "title" = some .null ∨
        listedInfo.lookup "title" = some (.string "")) := by
  have ht : listedInfo.lookup "title" = some (.array [.string "Pets"]) := rfl
  have hf : ∃ finding ∈
      (validate (.ofJson (.object [("info", .object listedInfo)])) ⟨64⟩).errors,
      finding.rule = .missingInfoTitle := by decide +kernel
  intro h
  simpa [ht] using h.mp hf

end ApiLint
