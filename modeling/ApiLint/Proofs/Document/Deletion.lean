import ApiLint.Proofs.Document.Reading
import ApiLint.Proofs.Json.Deletion

/-! Descriptions that are read from values from which an entry that is not read was taken away: what
is read one by one is the same, in the same order. -/

namespace ApiLint.Json.Trimmed

variable {α β : Type} {role middle below : Role} {value other : Json}

theorem scalarUnder? (h : Trimmed role value other) (key : String)
    (hk : role.under? key = some below) :
    (value.get? key).bind Json.scalarText? = (other.get? key).bind Json.scalarText? :=
  bind_eq_bind_of_rel (h.get? key hk) fun _ _ hv => hv.sameShape.scalarText?

theorem filledUnder? (h : Trimmed role value other) (key : String)
    (hk : role.under? key = some below) :
    (value.get? key).bind Json.filledText? = (other.get? key).bind Json.filledText? :=
  bind_eq_bind_of_rel (h.get? key hk) fun _ _ hv => hv.sameShape.filledText?

theorem map_elementsUnder {read : Json → β} (h : Trimmed role value other) (key : String)
    (hk : role.under? key = some below)
    (hr : ∀ value other, Trimmed below.element value other → read value = read other) :
    (((value.get? key).bind Json.elements?).getD []).map read =
      (((other.get? key).bind Json.elements?).getD []).map read :=
  map_getD_eq_map_of_rel (rel_bind (h.get? key hk) fun _ _ hv => hv.elements?) hr

/-- Entries under a key, where every one of them is read. -/
theorem map_entriesUnder? {read : Json → α} {f : String → α → β} (h : Trimmed role value other)
    (key : String) (hk : role.under? key = some middle)
    (ha : ∀ name, middle.under? name = some below)
    (hf : ∀ name value other, Trimmed below value other →
      f name (read value) = f name (read other)) :
    (value.entriesUnder? key read).map (List.map fun entry => f entry.1 entry.2) =
      (other.entriesUnder? key read).map (List.map fun entry => f entry.1 entry.2) := by
  rw [Json.entriesUnder?, Json.entriesUnder?, Option.map_map, Option.map_map]
  refine map_eq_map_of_rel (rel_bind (h.get? key hk) fun _ _ hv => hv.entries?) ?_
  intro members _ others hm
  simp only [Function.comp_apply, List.map_map]
  exact hm.map_entries (f := fun name value => f name (read value)) ha fun entry _ value hv =>
    hf entry.1 entry.2 value hv

theorem map_entriesUnder {read : Json → α} {f : String → α → β} (h : Trimmed role value other)
    (key : String) (hk : role.under? key = some middle)
    (ha : ∀ name, middle.under? name = some below)
    (hf : ∀ name value other, Trimmed below value other →
      f name (read value) = f name (read other)) :
    ((value.entriesUnder? key read).getD []).map (fun entry => f entry.1 entry.2) =
      ((other.entriesUnder? key read).getD []).map fun entry => f entry.1 entry.2 := by
  have hm := congrArg (Option.getD · []) (h.map_entriesUnder? key hk ha hf)
  simpa only [← Option.getD_map, List.map_nil] using hm

theorem info (h : Trimmed .info value other) : Info.ofJson value = Info.ofJson other := by
  rw [Info.ofJson, Info.ofJson, h.filledUnder? "title" rfl, h.filledUnder? "version" rfl]

theorem operationTags (h : Trimmed .operation value other) (method : HttpMethod) :
    (Operation.ofJson method value).tags = (Operation.ofJson method other).tags := by
  have ht := congrArg (List.filterMap id)
    (h.map_elementsUnder "tags" rfl fun _ _ hv => hv.sameShape.scalarText?)
  rwa [List.filterMap_map, List.filterMap_map] at ht

theorem isUndocumented (h : Trimmed .operation value other) (method : HttpMethod) :
    (Operation.ofJson method value).isUndocumented =
      (Operation.ofJson method other).isUndocumented := by
  simp only [Operation.isUndocumented, Operation.ofJson, h.filledUnder? "summary" rfl,
    h.filledUnder? "description" rfl]

/-- The entries of a path item that are no operations are not read. -/
theorem map_operations {f : String → Operation → β} (h : Trimmed .pathItem value other)
    (hf : ∀ key method value other, Trimmed .operation value other →
      f key (.ofJson method value) = f key (.ofJson method other)) :
    (PathItem.ofJson value).operations.map (fun entry => f entry.1 entry.2) =
      (PathItem.ofJson other).operations.map fun entry => f entry.1 entry.2 := by
  simp only [PathItem.ofJson, PathItem.ofJson.entries, List.map_filterMap, Option.map_map]
  rcases none_or_some_of_rel h.entries? with ⟨hv, ho⟩ | ⟨entries, others, hv, ho, he⟩
  · rw [hv, ho]
  · rw [hv, ho]
    refine he.filterMap_entries (f := fun key value =>
      (HttpMethod.ofKey? key).map fun method => f key (.ofJson method value)) ?_ ?_
    · intro key value hk
      rw [Option.map_eq_none_iff.mp hk, Option.map_none]
    · intro entry _ below hk value hv
      obtain ⟨method, hm, rfl⟩ := Option.map_eq_some_iff.mp hk
      rw [hm, Option.map_some, Option.map_some, hf entry.1 method entry.2 value hv]

/-! ## Descriptions -/

theorem openapi (h : Trimmed .document value other) :
    (Document.ofJson value).openapi = (Document.ofJson other).openapi :=
  h.scalarUnder? "openapi" rfl

theorem tagNames (h : Trimmed .document value other) :
    (Document.ofJson value).tags.map Tag.name = (Document.ofJson other).tags.map Tag.name := by
  simp only [Document.ofJson, List.map_map]
  exact h.map_elementsUnder "tags" rfl fun _ _ ht => ht.scalarUnder? "name" rfl

theorem map_pathItems {f : String → PathItem → β} (h : Trimmed .document value other)
    (hf : ∀ path value other, Trimmed .pathItem value other →
      f path (.ofJson value) = f path (.ofJson other)) :
    (Document.ofJson value).pathItems.map (fun entry => f entry.1 entry.2) =
      (Document.ofJson other).pathItems.map fun entry => f entry.1 entry.2 := by
  rw [Document.pathItems_ofJson, Document.pathItems_ofJson]
  exact h.map_entriesUnder "paths" rfl (fun _ => rfl) hf

theorem map_componentSchemas {f : String → Option Schema → β} (h : Trimmed .document value other)
    (hf : ∀ name value other, Trimmed .schema value other →
      f name (Schema.ofJson? value) = f name (Schema.ofJson? other)) :
    (Document.ofJson value).componentSchemas.map (fun entry => f entry.1 entry.2) =
      (Document.ofJson other).componentSchemas.map fun entry => f entry.1 entry.2 := by
  rw [Document.componentSchemas_ofJson, Document.componentSchemas_ofJson]
  rcases none_or_some_of_rel (h.get? "components" rfl) with ⟨hv, ho⟩ | ⟨_, _, hv, ho, hc⟩
  · rw [hv, ho]
  · rw [hv, ho]
    exact hc.map_entriesUnder "schemas" rfl (fun _ => rfl) hf

theorem map_documentOperations {f : Operation → β} (h : Trimmed .document value other)
    (hf : ∀ method value other, Trimmed .operation value other →
      f (.ofJson method value) = f (.ofJson method other)) :
    (Document.ofJson value).operations.map f = (Document.ofJson other).operations.map f := by
  have hm := h.map_pathItems (f := fun _ item => item.operations.map fun entry => f entry.2)
    fun _ _ _ hi => hi.map_operations (f := fun _ operation => f operation) fun _ => hf
  simp only [Document.operations, List.map_flatMap, List.map_map]
  exact congrArg List.flatten hm

end ApiLint.Json.Trimmed
