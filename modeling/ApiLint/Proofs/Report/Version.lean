import ApiLint.Proofs.Report.Rules
import ApiLint.Proofs.Text

/-! The grammar of versions, and what is found at the version field. The field is missing unless it
holds a scalar, and a scalar is accepted exactly if its text is a version. -/

namespace ApiLint

/-! ## Versions -/

/-- A number as it is written in a version: digits of ASCII, at least one. -/
structure IsNumeral (text : String) : Prop where
  ne_empty : text ≠ ""
  digits : ∀ letter ∈ text.toList, letter ∈ "0123456789".toList

/-- A version has three numbers, the first of which is 3, and nothing around them. -/
def IsVersion (version : String) : Prop :=
  ∃ minor patch, IsNumeral minor ∧ IsNumeral patch ∧ version = "3." ++ minor ++ "." ++ patch

theorem isNumeral_iff {text : String} :
    IsNumeral text ↔ text.toList ≠ [] ∧ ∀ letter ∈ text.toList, isDecimalDigit letter := by
  simp only [isDecimalDigit_iff, Ne, String.toList_eq_nil_iff]
  exact ⟨fun h => ⟨h.ne_empty, h.digits⟩, fun h => ⟨h.1, h.2⟩⟩

theorem isVersion_of_isSupportedVersion {version : String} (h : isSupportedVersion version) :
    IsVersion version := by
  unfold isSupportedVersion at h
  split at h
  · rename_i rest hv
    split at h
    · rename_i minor rest' hf
      obtain ⟨patch, rest'', hs⟩ : ∃ patch rest'', leadingDigits rest' = (patch, rest'') :=
        ⟨_, _, rfl⟩
      obtain ⟨rfl, hminor, -⟩ := leadingDigits_eq_iff.mp hf
      obtain ⟨rfl, hpatch, -⟩ := leadingDigits_eq_iff.mp hs
      rw [hs] at h
      simp only [Bool.and_eq_true, Bool.not_eq_true', List.isEmpty_eq_false_iff,
        List.isEmpty_iff] at h
      obtain ⟨⟨hm, hp⟩, rfl⟩ := h
      refine ⟨String.ofList minor, String.ofList patch, ?_, ?_, ?_⟩
      · exact isNumeral_iff.mpr (by simpa using ⟨hm, hminor⟩)
      · exact isNumeral_iff.mpr (by simpa using ⟨hp, hpatch⟩)
      · rw [← String.toList_inj, hv]
        simp
    · cases h
  · cases h

theorem isSupportedVersion_of_isVersion {version : String} (h : IsVersion version) :
    isSupportedVersion version := by
  obtain ⟨minor, patch, hm, hp, rfl⟩ := h
  obtain ⟨hm, hminor⟩ := isNumeral_iff.mp hm
  obtain ⟨hp, hpatch⟩ := isNumeral_iff.mp hp
  have hv : ("3." ++ minor ++ "." ++ patch).toList =
      '3' :: '.' :: (minor.toList ++ '.' :: patch.toList) := by
    simp
  -- The point behind the first number is no digit, and nothing is behind the second one.
  have hf : leadingDigits (minor.toList ++ '.' :: patch.toList) =
      (minor.toList, '.' :: patch.toList) :=
    leadingDigits_eq_iff.mpr ⟨rfl, hminor, by simp [isDecimalDigit]⟩
  have hs : leadingDigits patch.toList = (patch.toList, []) :=
    leadingDigits_eq_iff.mpr ⟨by simp, hpatch, by simp⟩
  simp [isSupportedVersion, hv, hf, hs, hm, hp]

theorem isSupportedVersion_iff {version : String} :
    isSupportedVersion version ↔ IsVersion version :=
  ⟨isVersion_of_isSupportedVersion, isSupportedVersion_of_isVersion⟩

-- Neither a line feed at the end nor digits of another script belong to a version.
example : ¬isSupportedVersion "3.0.4\n" ∧ ¬isSupportedVersion "3.٠.٤" := by decide

/-! ## Fields without a scalar -/

namespace Json

/-- There is nothing, or a value that has no text. -/
inductive NoScalar : Option Json → Prop where
  | absent : NoScalar none
  | null : NoScalar (some .null)
  | array (elements) : NoScalar (some (.array elements))
  | object (entries) : NoScalar (some (.object entries))

theorem noScalar_iff {value? : Option Json} :
    NoScalar value? ↔ value?.bind scalarText? = none := by
  constructor
  · rintro (_ | _ | _ | _) <;> rfl
  · intro h
    cases value? with
    | none => exact .absent
    | some value =>
        cases value with
        | null => exact .null
        | array elements => exact .array elements
        | object entries => exact .object entries
        | _ => cases h

end Json

/-! ## The findings -/

namespace Diagnostics

/-- Every finding meets a condition. -/
def Only (holds : Diagnostic → Prop) (found : Diagnostics) : Prop :=
  ∀ severity, ∀ finding ∈ found.ofSeverity severity, holds finding

section

variable {holds : Diagnostic → Prop}

theorem only_push_iff {found : Diagnostics} {rule : Rule} {path message : String} :
    (found.push rule path message).Only holds ↔ found.Only holds ∧ holds ⟨rule, message, path⟩ := by
  simp only [Only, ofSeverity_push, List.mem_append, List.mem_filter, List.mem_singleton, or_imp,
    forall_and]
  simp

theorem only_ofList_iff {findings : List Diagnostic} :
    (ofList findings).Only holds ↔ ∀ finding ∈ findings, holds finding := by
  simp only [Only, ofSeverity_ofList, List.mem_filter, decide_eq_true_eq]
  exact ⟨fun h finding hf => h _ finding ⟨hf, rfl⟩, fun h _ finding hf => h finding hf.1⟩

end

end Diagnostics

open Diagnostics

/-- The finding stands at the version field, or it is one of the rules for versions. -/
def Diagnostic.ConcernsVersion (finding : Diagnostic) : Prop :=
  finding.path = "openapi" ∨ finding.rule.subject = .version

instance (finding : Diagnostic) : Decidable finding.ConcernsVersion :=
  inferInstanceAs (Decidable (_ ∨ _))

def missingVersion : Diagnostic :=
  ⟨.missingOpenapi, "Missing required field: openapi", "openapi"⟩

def invalidVersion (text : String) : Diagnostic :=
  ⟨.invalidOpenapiVersion,
    "Invalid OpenAPI version format: \"" ++ text ++ "\". Expected 3.x.x", "openapi"⟩

/-- What is found about a version, or about the lack of one. -/
def versionFindings : Option String → List Diagnostic
  | none => [missingVersion]
  | some text => if isSupportedVersion text then [] else [invalidVersion text]

theorem checkVersion_eq_append (document : Document) (found : Diagnostics) :
    checkVersion document found = found ++ .ofList (versionFindings document.openapi) := by
  unfold checkVersion versionFindings
  cases document.openapi with
  | none => exact push_eq_append found _ _ _
  | some text =>
      dsimp only
      split
      · rw [ofList_nil, append_empty]
      · exact push_eq_append found _ _ _

theorem filter_versionFindings (text? : Option String) :
    (versionFindings text?).filter (·.ConcernsVersion) = versionFindings text? := by
  rw [List.filter_eq_self]
  intro finding hf
  refine decide_eq_true (.inl ?_)
  unfold versionFindings at hf
  split at hf
  · obtain rfl := List.mem_singleton.mp hf
    rfl
  · split at hf
    · cases hf
    · obtain rfl := List.mem_singleton.mp hf
      rfl

theorem only_checkInfo {document : Document} {found : Diagnostics}
    (h : found.Only fun finding => ¬finding.ConcernsVersion) :
    (checkInfo document found).Only fun finding => ¬finding.ConcernsVersion := by
  unfold checkInfo
  split
  · exact only_push_iff.mpr ⟨h, by decide⟩
  · exact only_push_iff.mpr ⟨h, by decide⟩
  · dsimp only
    split <;> split
    · exact h
    · exact only_push_iff.mpr ⟨h, by decide⟩
    · exact only_push_iff.mpr ⟨h, by decide⟩
    · exact only_push_iff.mpr ⟨only_push_iff.mpr ⟨h, by decide⟩, by decide⟩

theorem only_checkPathsField {document : Document} {found : Diagnostics}
    (h : found.Only fun finding => ¬finding.ConcernsVersion) :
    (checkPathsField document found).Only fun finding => ¬finding.ConcernsVersion := by
  unfold checkPathsField
  split
  · exact only_push_iff.mpr ⟨h, by decide⟩
  · exact only_push_iff.mpr ⟨h, by decide⟩
  · split
    · exact only_push_iff.mpr ⟨h, by decide⟩
    · exact h

/-- The other checks of the root add nothing about the version. -/
theorem exists_findings_checkRoot (document : Document) :
    ∃ findings, (∀ found, checkRoot document found = found ++ .ofList findings) ∧
      findings.filter (·.ConcernsVersion) = versionFindings document.openapi := by
  obtain ⟨others, ho⟩ : Appends fun found => checkPathsField document (checkInfo document found) :=
    (appends_checkPathsField document).comp (appends_checkInfo document)
  have hn : ∀ finding ∈ others, ¬finding.ConcernsVersion := by
    rw [← only_ofList_iff, ← empty_append (ofList others), ← ho]
    exact only_checkPathsField (only_checkInfo fun severity => by simp)
  refine ⟨versionFindings document.openapi ++ others, fun found => ?_, ?_⟩
  · rw [ofList_append, ← append_assoc, ← checkVersion_eq_append, ← ho]
    rfl
  · rw [List.filter_append, filter_versionFindings, List.append_right_eq_self,
      List.filter_eq_nil_iff]
    exact fun finding hf hc => hn finding hf (of_decide_eq_true hc)

/-- The message tells which text was taken for a version. -/
theorem invalidVersion_inj {text other : String} :
    invalidVersion text = invalidVersion other ↔ text = other := by
  simp [invalidVersion]

section

variable {text? : Option String}

theorem versionFindings_eq_nil_iff :
    versionFindings text? = [] ↔ ∃ text, text? = some text ∧ IsVersion text := by
  cases text? with
  | none => simp [versionFindings]
  | some text => simp [versionFindings, isSupportedVersion_iff]

theorem versionFindings_eq_missing_iff :
    versionFindings text? = [missingVersion] ↔ text? = none := by
  cases text? with
  | none => simp [versionFindings]
  | some text =>
      by_cases h : isSupportedVersion text <;>
        simp [versionFindings, h, invalidVersion, missingVersion]

theorem versionFindings_eq_invalid_iff {text : String} :
    versionFindings text? = [invalidVersion text] ↔ text? = some text ∧ ¬IsVersion text := by
  cases text? with
  | none => simp [versionFindings, missingVersion, invalidVersion]
  | some other =>
      rw [← isSupportedVersion_iff, Option.some_inj]
      by_cases h : isSupportedVersion other
      · rw [versionFindings, if_pos h]
        exact iff_of_false (List.cons_ne_nil _ _).symm fun he => he.2 (he.1 ▸ h)
      · rw [versionFindings, if_neg h, List.singleton_inj, invalidVersion_inj]
        exact ⟨fun he => ⟨he, he ▸ h⟩, fun he => he.1⟩

end

/-- Exactly the texts of the grammar are accepted. The check of the root finds nothing about the
version if the field holds a scalar with such a text, that it is missing if the field holds no
scalar, and otherwise that the text of the scalar is invalid. -/
theorem checkRoot_ofJson_version (value : Json) :
    (∀ text, isSupportedVersion text ↔ IsVersion text) ∧
      ∃ findings, (∀ found, checkRoot (.ofJson value) found = found ++ .ofList findings) ∧
        (findings.filter (·.ConcernsVersion) = [] ↔ ∃ version text,
          value.get? "openapi" = some version ∧ version.HasText text ∧ IsVersion text) ∧
        (findings.filter (·.ConcernsVersion) = [missingVersion] ↔
          Json.NoScalar (value.get? "openapi")) ∧
        ∀ text, findings.filter (·.ConcernsVersion) = [invalidVersion text] ↔ ∃ version,
          value.get? "openapi" = some version ∧ version.HasText text ∧ ¬IsVersion text := by
  refine ⟨fun text => isSupportedVersion_iff, ?_⟩
  obtain ⟨findings, hc, hf⟩ := exists_findings_checkRoot (.ofJson value)
  refine ⟨findings, hc, ?_, ?_, fun text => ?_⟩
  · rw [hf, versionFindings_eq_nil_iff]
    simp only [Document.openapi_ofJson_eq_some_iff]
    grind
  · rw [hf, versionFindings_eq_missing_iff, Json.noScalar_iff]
    rfl
  · rw [hf, versionFindings_eq_invalid_iff, Document.openapi_ofJson_eq_some_iff]
    grind

end ApiLint
