import ApiLint.Proofs.Document.Reading
import ApiLint.Proofs.Json.Reordering
import Mathlib.Data.Multiset.Bind

/-! Descriptions that are read from values that differ only in the order of entries. What holds
scalars or comes from an array is the same; what holds entries is the same up to their order. -/

namespace ApiLint

/-- Lists with the same items, up to the order of lists and of items, have the same items. -/
theorem perm_flatMap {α β : Type} {f : α → List β} {items others : List α}
    (h : (items.map fun item => Multiset.ofList (f item)).Perm
      (others.map fun item => Multiset.ofList (f item))) :
    (items.flatMap f).Perm (others.flatMap f) := by
  rw [← Multiset.coe_eq_coe, ← Multiset.coe_bind, ← Multiset.coe_bind]
  exact congrArg Multiset.join (Multiset.coe_eq_coe.mpr h)

/-- Entries that are read one by one from those of alike objects. -/
inductive ReadAlike {α : Type} (read : Json → α) : Entries α → Entries α → Prop where
  | intro {members others : Entries Json} : (Json.object members).Alike (.object others) →
      ReadAlike read (members.map fun member => (member.1, read member.2))
        (others.map fun member => (member.1, read member.2))

namespace ReadAlike

variable {α β : Type} {read : Json → α} {entries others : Entries α}

theorem nil : ReadAlike read [] [] := by
  have h : (Json.object []).UniqueKeys := by simp [Json.UniqueKeys]
  exact .intro (.refl h)

theorem map {f : String → α → β} (h : ReadAlike read entries others)
    (hf : ∀ name value other, value.Alike other → f name (read value) = f name (read other)) :
    (entries.map fun entry => f entry.1 entry.2).Perm
      (others.map fun entry => f entry.1 entry.2) := by
  obtain ⟨h⟩ := h
  rw [List.map_map, List.map_map]
  exact h.map_entries (f := fun name value => f name (read value)) fun entry _ value hv =>
    hf entry.1 entry.2 value hv

theorem keys (h : ReadAlike read entries others) :
    (entries.map Prod.fst).Perm (others.map Prod.fst) :=
  h.map (f := fun name _ => name) fun _ _ _ _ => rfl

theorem length_eq (h : ReadAlike read entries others) : entries.length = others.length := by
  simpa only [List.length_map] using h.keys.length_eq

theorem isSome_lookup (h : ReadAlike read entries others) (key : String) :
    (entries.lookup key).isSome = (others.lookup key).isSome := by
  rw [Bool.eq_iff_iff, Entries.isSome_lookup_iff, Entries.isSome_lookup_iff, h.keys.mem_iff]

theorem flatMap {f : String → α → List β} (h : ReadAlike read entries others)
    (hf : ∀ name value other, value.Alike other →
      (f name (read value)).Perm (f name (read other))) :
    (entries.flatMap fun entry => f entry.1 entry.2).Perm
      (others.flatMap fun entry => f entry.1 entry.2) := by
  have hm := h.map (f := fun name item => Multiset.ofList (f name item))
    fun name value other hv => Multiset.coe_eq_coe.mpr (hf name value other hv)
  exact perm_flatMap hm

/-- Where there is nothing to read on either side, there are no entries. -/
theorem getD_nil {entries? others? : Option (Entries α)}
    (h : Option.Rel (ReadAlike read) entries? others?) :
    ReadAlike read (entries?.getD []) (others?.getD []) := by
  cases h with
  | none => exact .nil
  | some h => exact h

end ReadAlike

namespace Json.Alike

variable {value other : Json}

theorem entriesUnder? {α : Type} (h : value.Alike other) (key : String) (read : Json → α) :
    Option.Rel (ReadAlike read) (value.entriesUnder? key read) (other.entriesUnder? key read) := by
  have he := rel_bind (h.get? key) fun _ _ hv => hv.entries?
  rcases none_or_some_of_rel he with ⟨hv, ho⟩ | ⟨members, others, hv, ho, hm⟩
  · rw [Json.entriesUnder?, Json.entriesUnder?, hv, ho]
    exact .none
  · rw [Json.entriesUnder?, Json.entriesUnder?, hv, ho]
    exact .some (.intro hm)

theorem entriesUnder {α : Type} (h : value.Alike other) (key : String) (read : Json → α) :
    ReadAlike read ((value.entriesUnder? key read).getD [])
      ((other.entriesUnder? key read).getD []) :=
  .getD_nil (h.entriesUnder? key read)

theorem scalarUnder? (h : value.Alike other) (key : String) :
    (value.get? key).bind Json.scalarText? = (other.get? key).bind Json.scalarText? :=
  bind_eq_bind_of_rel (h.get? key) fun _ _ hv => hv.scalarText?

theorem filledUnder? (h : value.Alike other) (key : String) :
    (value.get? key).bind Json.filledText? = (other.get? key).bind Json.filledText? :=
  bind_eq_bind_of_rel (h.get? key) fun _ _ hv => hv.filledText?

/-- The elements of an array keep their order, so that reading each one gives the same. -/
theorem elementsUnder {β : Type} {read : Json → β} (h : value.Alike other) (key : String)
    (hr : ∀ value other, value.Alike other → read value = read other) :
    (((value.get? key).bind Json.elements?).getD []).map read =
      (((other.get? key).bind Json.elements?).getD []).map read :=
  map_getD_eq_map_of_rel (rel_bind (h.get? key) fun _ _ hv => hv.elements?) hr

theorem info (h : value.Alike other) : Info.ofJson value = Info.ofJson other := by
  rw [Info.ofJson, Info.ofJson, h.filledUnder?, h.filledUnder?]

theorem tag (h : value.Alike other) : Tag.ofJson value = Tag.ofJson other := by
  rw [Tag.ofJson, Tag.ofJson, h.scalarUnder?, h.filledUnder?]

theorem operationTags (h : value.Alike other) (method : HttpMethod) :
    (Operation.ofJson method value).tags = (Operation.ofJson method other).tags := by
  have ht := congrArg (List.filterMap id) (h.elementsUnder "tags" fun _ _ hv => hv.scalarText?)
  rwa [List.filterMap_map, List.filterMap_map] at ht

theorem isUndocumented (h : value.Alike other) (method : HttpMethod) :
    (Operation.ofJson method value).isUndocumented =
      (Operation.ofJson method other).isUndocumented := by
  simp only [Operation.isUndocumented, Operation.ofJson, h.filledUnder?]

/-- The entries of alike path items that are operations. -/
theorem operations {β : Type} {f : String → Operation → β} (h : value.Alike other)
    (hf : ∀ key method value other, value.Alike other →
      f key (.ofJson method value) = f key (.ofJson method other)) :
    ((PathItem.ofJson value).operations.map fun entry => f entry.1 entry.2).Perm
      ((PathItem.ofJson other).operations.map fun entry => f entry.1 entry.2) := by
  simp only [PathItem.ofJson, PathItem.ofJson.entries, List.map_filterMap, Option.map_map]
  rcases none_or_some_of_rel h.entries? with ⟨hv, ho⟩ | ⟨entries, others, hv, ho, he⟩
  · rw [hv, ho]
  · rw [hv, ho]
    refine he.filterMap_entries (f := fun key value =>
      (HttpMethod.ofKey? key).map fun method => f key (.ofJson method value)) ?_
    intro entry _ value hv
    exact Option.map_congr fun method _ => hf entry.1 method entry.2 value hv

/-! ## Descriptions -/

theorem openapi (h : value.Alike other) :
    (Document.ofJson value).openapi = (Document.ofJson other).openapi :=
  h.scalarUnder? "openapi"

theorem tags (h : value.Alike other) :
    (Document.ofJson value).tags = (Document.ofJson other).tags :=
  h.elementsUnder "tags" fun _ _ hv => hv.tag

theorem pathItems (h : value.Alike other) :
    ReadAlike PathItem.ofJson (Document.ofJson value).pathItems
      (Document.ofJson other).pathItems := by
  rw [Document.pathItems_ofJson, Document.pathItems_ofJson]
  exact h.entriesUnder "paths" PathItem.ofJson

theorem componentSchemas (h : value.Alike other) :
    ReadAlike Schema.ofJson? (Document.ofJson value).componentSchemas
      (Document.ofJson other).componentSchemas := by
  rw [Document.componentSchemas_ofJson, Document.componentSchemas_ofJson]
  exact .getD_nil (rel_bind (h.get? "components") fun _ _ hc => hc.entriesUnder? "schemas" _)

theorem documentOperations {β : Type} {f : Operation → β} (h : value.Alike other)
    (hf : ∀ method value other, value.Alike other →
      f (.ofJson method value) = f (.ofJson method other)) :
    ((Document.ofJson value).operations.map f).Perm ((Document.ofJson other).operations.map f) := by
  simp only [Document.operations, List.map_flatMap, List.map_map]
  refine h.pathItems.flatMap (f := fun _ item => item.operations.map fun entry => f entry.2) ?_
  exact fun _ _ _ hv => hv.operations (f := fun _ operation => f operation) fun _ => hf

theorem flatMap_documentOperations {β : Type} {f : Operation → List β} (h : value.Alike other)
    (hf : ∀ method value other, value.Alike other →
      (f (.ofJson method value)).Perm (f (.ofJson method other))) :
    ((Document.ofJson value).operations.flatMap f).Perm
      ((Document.ofJson other).operations.flatMap f) := by
  have hm := h.documentOperations (f := fun operation => Multiset.ofList (f operation))
    fun method value other hv => Multiset.coe_eq_coe.mpr (hf method value other hv)
  exact perm_flatMap hm

end Json.Alike

end ApiLint
