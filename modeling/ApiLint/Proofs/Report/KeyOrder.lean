import ApiLint.Proofs.Document.Reordering
import ApiLint.Proofs.FirstOccurrences
import ApiLint.Proofs.Report.RootFields
import ApiLint.Proofs.Report.Tally
import ApiLint.Proofs.Schema.Reordering
import ApiLint.Proofs.Stats

/-! The order of entries decides nothing but the order of findings: values that are equal up to that
order have the same findings and the same counts. -/

namespace ApiLint

/-! ## Checks -/

section

variable {value other : Json} (options : Options)

theorem walkSchema_alike (h : value.Alike other) (path : String) :
    (walkSchema options (Schema.ofJson? value) path {}).tally =
      (walkSchema options (Schema.ofJson? other) path {}).tally := by
  funext severity
  rw [tally_walkSchema, tally_walkSchema, Schema.nodeTypes_ofJson?, Schema.nodeTypes_ofJson?,
    h.nodeTypes]

theorem checkMedia_alike (h : value.Alike other) (path : String) :
    (walkSchema options (MediaType.ofJson value).schema path {}).tally =
      (walkSchema options (MediaType.ofJson other).schema path {}).tally := by
  rcases none_or_some_of_rel (h.get? "schema") with ⟨hv, ho⟩ | ⟨schema, schema', hv, ho, hs⟩
  · rw [MediaType.ofJson, MediaType.ofJson, hv, ho]
  · rw [MediaType.ofJson, MediaType.ofJson, hv, ho]
    exact walkSchema_alike options hs path

theorem checkResponse_alike (h : value.Alike other) (context code : String) :
    (checkResponse options context code (.ofJson value) {}).tally =
      (checkResponse options context code (.ofJson other) {}).tally := by
  refine Appends.tally_foldl_eq (fun _ => appends_walkSchema options _ _) ?_ rfl
  refine (h.entriesUnder "content" MediaType.ofJson).map (f := fun name media =>
    (walkSchema options media.schema
      (context ++ ".responses." ++ code ++ ".content." ++ name ++ ".schema") {}).tally) ?_
  exact fun _ _ _ hm => checkMedia_alike options hm _

theorem checkResponses_alike (h : value.Alike other) (label context : String) :
    (checkResponses options label context (value.entriesUnder? "responses" Response.ofJson)
        {}).tally =
      (checkResponses options label context (other.entriesUnder? "responses" Response.ofJson)
        {}).tally := by
  rcases none_or_some_of_rel (h.entriesUnder? "responses" Response.ofJson) with
    ⟨hv, ho⟩ | ⟨responses, others, hv, ho, hr⟩
  · rw [hv, ho]
  · have hc : (successCodes.any fun code => (responses.lookup code).isSome) =
        successCodes.any fun code => (others.lookup code).isSome :=
      List.any_congr rfl hr.isSome_lookup
    have ht := hr.map (f := fun code response =>
      (checkResponse options context code response {}).tally)
      fun code _ _ hv => checkResponse_alike options hv context code
    have hf : (responses.foldl (fun found entry =>
          checkResponse options context entry.1 entry.2 found) {}).tally =
        (others.foldl (fun found entry =>
          checkResponse options context entry.1 entry.2 found) {}).tally :=
      Appends.tally_foldl_eq (fun _ => appends_checkResponse options _ _ _) ht rfl
    rw [hv, ho]
    simp only [checkResponses, hc]
    split
    · exact hf
    · exact Appends.tally_eq (.push _ _ _) (.push _ _ _) rfl hf

theorem checkOperation_alike (h : value.Alike other) (path key : String) (method : HttpMethod) :
    (checkOperation options path key (.ofJson method value) {}).tally =
      (checkOperation options path key (.ofJson method other) {}).tally := by
  have hr := checkResponses_alike options h (method.label ++ " " ++ path)
    ("paths." ++ path ++ "." ++ key)
  rw [checkOperation, checkOperation, h.isUndocumented, h.operationTags]
  simp only [Operation.method_ofJson, Operation.responses_ofJson]
  split <;> split <;> simp only [Diagnostics.push_eq_append, Diagnostics.tally_append, hr]

theorem checkPathItem_alike (h : value.Alike other) (path : String) :
    (checkPathItem options path (.ofJson value) {}).tally =
      (checkPathItem options path (.ofJson other) {}).tally := by
  refine Appends.tally_foldl_eq (fun _ => appends_checkOperation options _ _ _) ?_ rfl
  refine h.operations (f := fun key operation =>
    (checkOperation options path key operation {}).tally) ?_
  exact fun key method _ _ ho => checkOperation_alike options ho path key method

theorem checkPaths_alike (h : value.Alike other) :
    (checkPaths (.ofJson value) options {}).tally =
      (checkPaths (.ofJson other) options {}).tally := by
  refine Appends.tally_foldl_eq (fun _ => appends_checkPathItem options _ _) ?_ rfl
  refine h.pathItems.map (f := fun path item => (checkPathItem options path item {}).tally) ?_
  exact fun path _ _ hi => checkPathItem_alike options hi path

theorem checkComponents_alike (h : value.Alike other) :
    (checkComponents (.ofJson value) options {}).tally =
      (checkComponents (.ofJson other) options {}).tally := by
  refine Appends.tally_foldl_eq (fun _ => appends_walkSchema options _ _) ?_ rfl
  refine h.componentSchemas.map (f := fun name schema =>
    (walkSchema options schema ("components.schemas." ++ name) {}).tally) ?_
  exact fun name _ _ hs => walkSchema_alike options hs _

end

/-! ## Root fields -/

section

variable {value other : Json}

theorem checkVersion_alike (h : value.Alike other) (found : Diagnostics) :
    checkVersion (.ofJson value) found = checkVersion (.ofJson other) found := by
  rw [checkVersion, checkVersion, h.openapi]

theorem checkInfo_alike (h : value.Alike other) (found : Diagnostics) :
    checkInfo (.ofJson value) found = checkInfo (.ofJson other) found :=
  checkInfo_of_rel Json.Alike.sameShape (h.get? "info") (fun _ _ hi => hi.info) found

theorem checkPathsField_alike (h : value.Alike other) (found : Diagnostics) :
    checkPathsField (.ofJson value) found = checkPathsField (.ofJson other) found :=
  checkPathsField_of_rel Json.Alike.sameShape (h.get? "paths") h.pathItems.length_eq found

theorem checkRoot_alike (h : value.Alike other) (found : Diagnostics) :
    checkRoot (.ofJson value) found = checkRoot (.ofJson other) found := by
  rw [checkRoot, checkRoot, checkVersion_alike h, checkInfo_alike h, checkPathsField_alike h]

/-! ## Tags -/

theorem usedTags_alike (h : value.Alike other) :
    (Document.ofJson value).usedTags.Perm (Document.ofJson other).usedTags :=
  eraseDups_perm (h.flatMap_documentOperations fun method _ _ ho =>
    .of_eq (ho.operationTags method))

theorem checkTags_alike (h : value.Alike other) :
    (checkTags (.ofJson value) {}).tally = (checkTags (.ofJson other) {}).tally := by
  have hd : (Document.ofJson value).declaredTags = (Document.ofJson other).declaredTags := by
    rw [Document.declaredTags, Document.declaredTags, h.tags]
  have hu := usedTags_alike h
  have hc (tag : String) : (Document.ofJson value).usedTags.contains tag =
      (Document.ofJson other).usedTags.contains tag := hu.contains_eq
  rw [checkTags, checkTags, hd]
  simp only [hc]
  exact Appends.tally_foldl_eq (fun _ => .push _ _ _) ((hu.filter _).map _) rfl

/-! ## Counts -/

theorem stats_alike (h : value.Alike other) :
    Stats.ofDocument (.ofJson value) = Stats.ofDocument (.ofJson other) := by
  refine Stats.ofDocument_congr (h.documentOperations fun _ _ _ _ => rfl) ?_
    (congrArg List.length h.tags) h.componentSchemas.length_eq
  exact h.flatMap_documentOperations fun _ _ _ hv =>
    (hv.entriesUnder "responses" Response.ofJson).keys

end

/-! ## Reports -/

theorem checkDocument_alike {value other : Json} (options : Options) (h : value.Alike other) :
    (checkDocument (.ofJson value) options {}).tally =
      (checkDocument (.ofJson other) options {}).tally := by
  have hr : (checkRoot (.ofJson value) {}).tally = (checkRoot (.ofJson other) {}).tally := by
    rw [checkRoot_alike h]
  have hc := (appends_checkComponents options _).tally_eq (appends_checkComponents options _)
    (checkComponents_alike options h) hr
  have hp := (appends_checkPaths options _).tally_eq (appends_checkPaths options _)
    (checkPaths_alike options h) hc
  rw [checkDocument, checkDocument]
  exact (appends_checkTags _).tally_eq (appends_checkTags _) (checkTags_alike h) hp

/-- Values that are equal up to the order of entries have the same findings up to their order, and
the same counts. -/
theorem validate_reordered {value other : Json} (hu : value.UniqueKeys)
    (hr : value.Reordered other) (options : Options) :
    (validate (.ofJson value) options).errors.Perm (validate (.ofJson other) options).errors ∧
      (validate (.ofJson value) options).warnings.Perm
        (validate (.ofJson other) options).warnings ∧
      (validate (.ofJson value) options).isValid = (validate (.ofJson other) options).isValid ∧
      (validate (.ofJson value) options).stats = (validate (.ofJson other) options).stats := by
  have h : value.Alike other := ⟨hu, hr⟩
  have hf := Diagnostics.tally_eq_iff.mp (checkDocument_alike options h)
  exact ⟨hf .error, hf .warning, (hf .error).isEmpty_eq, stats_alike h⟩

/-- Two operations of one method, told apart by the letters of their keys. -/
def spelledTwice : Json :=
  .object [("paths", .object [("/pets", .object [
    ("GET", .object [("summary", .string "All pets"), ("tags", .array [.string "pets"])]),
    ("get", .object [])])])]

/-- The same with the operations, and the entries of the first one, the other way round. -/
def spelledTwiceReversed : Json :=
  .object [("paths", .object [("/pets", .object [
    ("get", .object []),
    ("GET", .object [("tags", .array [.string "pets"]), ("summary", .string "All pets")])])])]

theorem validate_reordered_spelledTwice :
    spelledTwice.UniqueKeys ∧ spelledTwice.Reordered spelledTwiceReversed ∧
      (validate (.ofJson spelledTwice) ⟨64⟩).errors ≠
        (validate (.ofJson spelledTwiceReversed) ⟨64⟩).errors ∧
      (validate (.ofJson spelledTwice) ⟨64⟩).errors.Perm
        (validate (.ofJson spelledTwiceReversed) ⟨64⟩).errors := by
  have hu : spelledTwice.UniqueKeys := by simp [Json.UniqueKeys, spelledTwice]
  have hr : spelledTwice.Reordered spelledTwiceReversed := by
    refine .object ?_ (.cons (.object ?_ (.cons (.object ?_ ?_ (.swap _ _ _)) .nil) (.refl _)) .nil)
      (.refl _)
    · rfl
    · rfl
    · rfl
    · exact .cons (.object rfl (.cons (.refl _) (.cons (.refl _) .nil)) (.swap _ _ _))
        (.cons (.refl _) .nil)
  exact ⟨hu, hr, by decide +kernel, (validate_reordered hu hr ⟨64⟩).1⟩

end ApiLint
