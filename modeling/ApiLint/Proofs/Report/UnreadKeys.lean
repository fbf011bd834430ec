import ApiLint.Proofs.Document.Deletion
import ApiLint.Proofs.Report.RootFields
import ApiLint.Proofs.Schema.Deletion
import ApiLint.Proofs.Stats
import ApiLint.Report

/-! Keys that are not read have no influence: taking away such entries, one after the other, leaves
the findings and the counts as they are. -/

namespace ApiLint

open Json (Trimmed)

/-! ## Checks -/

section

variable {value other : Json} (options : Options)

theorem walkSchema_trimmed (h : Trimmed .schema value other) (path : String) :
    walkSchema options (Schema.ofJson? value) path =
      walkSchema options (Schema.ofJson? other) path := by
  funext found
  rw [walkSchema_eq_append, walkSchema_eq_append, Schema.nodeTypes_ofJson?,
    Schema.nodeTypes_ofJson?, h.nodeTypes]

theorem checkMedia_trimmed (h : Trimmed .mediaType value other) (path : String) :
    walkSchema options (MediaType.ofJson value).schema path =
      walkSchema options (MediaType.ofJson other).schema path := by
  rcases none_or_some_of_rel (h.get? "schema" rfl) with ⟨hv, ho⟩ | ⟨schema, schema', hv, ho, hs⟩
  · rw [MediaType.ofJson, MediaType.ofJson, hv, ho]
  · rw [MediaType.ofJson, MediaType.ofJson, hv, ho]
    exact walkSchema_trimmed options hs path

theorem checkResponse_trimmed (h : Trimmed .response value other) (context code : String) :
    checkResponse options context code (.ofJson value) =
      checkResponse options context code (.ofJson other) := by
  funext found
  refine Diagnostics.foldl_eq_of_map_eq (h.map_entriesUnder (f := fun name (media : MediaType) =>
    walkSchema options media.schema
      (context ++ ".responses." ++ code ++ ".content." ++ name ++ ".schema"))
    "content" rfl (fun _ => rfl) ?_) found
  exact fun _ _ _ hm => checkMedia_trimmed options hm _

/-- Responses with the same codes and the same checks. -/
theorem checkResponses_congr (label context : String) {responses others : Entries Response}
    (h : (responses.map fun entry =>
        (entry.1, checkResponse options context entry.1 entry.2)) =
      others.map fun entry => (entry.1, checkResponse options context entry.1 entry.2)) :
    checkResponses options label context (some responses) =
      checkResponses options label context (some others) := by
  have hk : responses.map Prod.fst = others.map Prod.fst := by
    have := congrArg (List.map Prod.fst) h
    rwa [List.map_map, List.map_map] at this
  have hf : (responses.map fun entry => checkResponse options context entry.1 entry.2) =
      others.map fun entry => checkResponse options context entry.1 entry.2 := by
    have := congrArg (List.map Prod.snd) h
    rwa [List.map_map, List.map_map] at this
  have hl : (successCodes.any fun code => (responses.lookup code).isSome) =
      successCodes.any fun code => (others.lookup code).isSome := by
    refine List.any_congr rfl fun code => ?_
    rw [Bool.eq_iff_iff, Entries.isSome_lookup_iff, Entries.isSome_lookup_iff, hk]
  funext found
  rw [checkResponses, checkResponses]
  simp only [hl, Diagnostics.foldl_eq_of_map_eq hf]

theorem checkResponses_trimmed (h : Trimmed .operation value other) (label context : String) :
    checkResponses options label context (value.entriesUnder? "responses" Response.ofJson) =
      checkResponses options label context (other.entriesUnder? "responses" Response.ofJson) := by
  have hm := h.map_entriesUnder? (f := fun code response =>
      (code, checkResponse options context code response)) "responses" rfl (fun _ => rfl)
    fun code _ _ hr => congrArg (code, ·) (checkResponse_trimmed options hr context code)
  cases hv : value.entriesUnder? "responses" Response.ofJson with
  | none =>
      rw [hv, Option.map_none, eq_comm, Option.map_eq_none_iff] at hm
      rw [hm]
  | some responses =>
      rw [hv, Option.map_some, eq_comm, Option.map_eq_some_iff] at hm
      obtain ⟨others, ho, hm⟩ := hm
      rw [ho]
      exact checkResponses_congr options label context hm.symm

theorem checkOperation_trimmed (h : Trimmed .operation value other) (path key : String)
    (method : HttpMethod) :
    checkOperation options path key (.ofJson method value) =
      checkOperation options path key (.ofJson method other) := by
  funext found
  rw [checkOperation, checkOperation, Operation.responses_ofJson, Operation.responses_ofJson,
    Operation.method_ofJson, Operation.method_ofJson, h.isUndocumented, h.operationTags,
    checkResponses_trimmed options h]

theorem checkPathItem_trimmed (h : Trimmed .pathItem value other) (path : String) :
    checkPathItem options path (.ofJson value) = checkPathItem options path (.ofJson other) := by
  funext found
  refine Diagnostics.foldl_eq_of_map_eq (h.map_operations (f := fun key operation found =>
    checkOperation options path key operation found) ?_) _
  exact fun key method _ _ ho => checkOperation_trimmed options ho path key method

theorem checkPaths_trimmed (h : Trimmed .document value other) :
    checkPaths (.ofJson value) options = checkPaths (.ofJson other) options := by
  funext found
  refine Diagnostics.foldl_eq_of_map_eq (h.map_pathItems (f := fun path item found =>
    checkPathItem options path item found) ?_) found
  exact fun path _ _ hi => checkPathItem_trimmed options hi path

theorem checkComponents_trimmed (h : Trimmed .document value other) :
    checkComponents (.ofJson value) options = checkComponents (.ofJson other) options := by
  funext found
  refine Diagnostics.foldl_eq_of_map_eq (h.map_componentSchemas (f := fun name schema found =>
    walkSchema options schema ("components.schemas." ++ name) found) ?_) found
  exact fun name _ _ hs => walkSchema_trimmed options hs _

end

section

variable {value other : Json}

theorem checkRoot_trimmed (h : Trimmed .document value other) :
    checkRoot (.ofJson value) = checkRoot (.ofJson other) := by
  -- Every path is read, so that no path item is lost.
  have hl : (Document.ofJson value).pathItems.length =
      (Document.ofJson other).pathItems.length := by
    have hm := h.map_pathItems (f := fun path _ => path) fun _ _ _ _ => rfl
    simpa only [List.length_map] using congrArg List.length hm
  have hi := checkInfo_of_rel Trimmed.sameShape (h.get? "info" rfl) fun _ _ hi => hi.info
  have hp := checkPathsField_of_rel Trimmed.sameShape (h.get? "paths" rfl) hl
  funext found
  rw [checkRoot, checkRoot, checkVersion, checkVersion, h.openapi, hi, hp]

theorem checkTags_trimmed (h : Trimmed .document value other) :
    checkTags (.ofJson value) = checkTags (.ofJson other) := by
  have hd : (Document.ofJson value).declaredTags = (Document.ofJson other).declaredTags := by
    have ht := congrArg (List.filterMap id) h.tagNames
    rw [List.filterMap_map, List.filterMap_map] at ht
    exact congrArg List.eraseDups ht
  have hu : (Document.ofJson value).usedTags = (Document.ofJson other).usedTags := by
    have hm := h.map_documentOperations fun method _ _ ho => ho.operationTags method
    rw [Document.usedTags, Document.usedTags, List.flatMap_def, List.flatMap_def, hm]
  funext found
  rw [checkTags, checkTags, hd, hu]

theorem stats_trimmed (h : Trimmed .document value other) :
    Stats.ofDocument (.ofJson value) = Stats.ofDocument (.ofJson other) := by
  have hm := h.map_documentOperations (f := Operation.method) fun _ _ _ _ => rfl
  have hr := h.map_documentOperations (f := fun operation =>
      (operation.responses.getD []).map Prod.fst)
    fun _ _ _ ho => ho.map_entriesUnder (f := fun code _ => code) "responses" rfl (fun _ => rfl)
      fun _ _ _ _ => rfl
  have ht := congrArg List.length h.tagNames
  have hs := congrArg List.length
    (h.map_componentSchemas (f := fun name _ => name) fun _ _ _ _ => rfl)
  refine Stats.ofDocument_congr (.of_eq hm) (.of_eq ?_) ?_ ?_
  · rw [List.flatMap_def, List.flatMap_def, hr]
  · simpa only [List.length_map] using ht
  · simpa only [List.length_map] using hs

end

/-! ## Reports -/

theorem validate_trimmed {value other : Json} (h : Trimmed .document value other)
    (options : Options) : validate (.ofJson value) options = validate (.ofJson other) options := by
  have hd : checkDocument (.ofJson value) options {} =
      checkDocument (.ofJson other) options {} := by
    rw [checkDocument, checkDocument, checkRoot_trimmed h, checkComponents_trimmed options h,
      checkPaths_trimmed options h, checkTags_trimmed h]
  rw [validate, validate, hd, stats_trimmed h]

/-- Whatever entries are taken away that are not read, the report stays the same. -/
theorem validate_eq_of_deletions {value other : Json}
    (h : Relation.ReflTransGen (Json.Deletion .document) value other) (options : Options) :
    validate (.ofJson other) options = validate (.ofJson value) options := by
  induction h with
  | refl => rfl
  | tail _ hd ih => rw [← ih, validate_trimmed (.inr hd)]

/-- One operation and one schema, with room for entries of the root, the path item and the
schema. -/
def annotatedPets (root item schema : Entries Json) : Json :=
  .object (root ++ [
    ("paths", .object [("/pets", .object (item ++ [("get", .object [])]))]),
    ("components", .object [("schemas", .object [
      ("Pet", .object (schema ++ [("type", .string "pet")]))])])])

theorem validate_eq_of_deletions_annotatedPets :
    let annotated := annotatedPets [("get", .object [])] [("parameters", .array [])]
      [("$ref", .string "#/other")]
    Relation.ReflTransGen (Json.Deletion .document) annotated (annotatedPets [] [] []) ∧
      (validate (.ofJson annotated) ⟨64⟩).errors ≠ [] ∧
      validate (.ofJson (annotatedPets [] [] [])) ⟨64⟩ = validate (.ofJson annotated) ⟨64⟩ := by
  have parameters : Role.pathItem.under? "parameters" = none := by decide +kernel
  have root (value : Json) (item schema : Entries Json) : Json.Deletion .document
      (annotatedPets [("get", value)] item schema) (annotatedPets [] item schema) :=
    @Json.Deletion.here .document [] _ _ _ rfl
  have item (value : Json) (schema : Entries Json) : Json.Deletion .document
      (annotatedPets [] [("parameters", value)] schema) (annotatedPets [] [] schema) :=
    @Json.Deletion.entry .document [] _ _ _ _ (@Json.Deletion.entry .paths [] _ _ _ _
      (@Json.Deletion.here .pathItem [] _ _ _ parameters))
  have schema (value : Json) : Json.Deletion .document
      (annotatedPets [] [] [("$ref", value)]) (annotatedPets [] [] []) :=
    @Json.Deletion.entry .document [_] _ _ _ _ (@Json.Deletion.entry .components [] _ _ _ _
      (@Json.Deletion.entry .schemas [] _ _ _ _ (@Json.Deletion.here .schema [] _ _ _ rfl)))
  have h : Relation.ReflTransGen (Json.Deletion .document)
      (annotatedPets [("get", .object [])] [("parameters", .array [])]
        [("$ref", .string "#/other")]) (annotatedPets [] [] []) :=
    .head (root _ _ _) (.head (item _ _) (.single (schema _)))
  exact ⟨h, by decide +kernel, validate_eq_of_deletions h ⟨64⟩⟩

end ApiLint
