import ApiLint.Document.Paths
import ApiLint.Proofs.Entries
import ApiLint.Proofs.Json
import ApiLint.Proofs.Json.Related
import ApiLint.Proofs.Json.Tree

/-! Values that differ only in the order of entries, and what can be read from a value without
telling such values apart. -/

namespace ApiLint

namespace Json

/-- Equal up to the order of the entries of objects, at any depth. -/
inductive Reordered : Json → Json → Prop where
  | refl (value) : Reordered value value
  | array {elements others} : List.Forall₂ Reordered elements others →
      Reordered (.array elements) (.array others)
  | object {entries middle others : Entries Json} : entries.map Prod.fst = middle.map Prod.fst →
      List.Forall₂ Reordered (entries.map Prod.snd) (middle.map Prod.snd) →
      middle.Perm others → Reordered (.object entries) (.object others)

/-- A reordering of a value in which no object holds a key twice. -/
structure Alike (value other : Json) : Prop where
  uniqueKeys : value.UniqueKeys
  reordered : value.Reordered other

theorem UniqueKeys.keys {entries : Entries Json} (h : (object entries).UniqueKeys) :
    (entries.map Prod.fst).Nodup :=
  Everywhere.self h

theorem UniqueKeys.entry {entries : Entries Json} (h : (object entries).UniqueKeys)
    {entry : String × Json} (he : entry ∈ entries) : entry.2.UniqueKeys :=
  (everywhere_object_iff.mp h).2 entry he

theorem UniqueKeys.element {elements : List Json} (h : (array elements).UniqueKeys)
    {element : Json} (he : element ∈ elements) : element.UniqueKeys :=
  (everywhere_array_iff.mp h).2 element he

theorem UniqueKeys.get? {value member : Json} {key : String} (hu : value.UniqueKeys)
    (h : value.get? key = some member) : member.UniqueKeys := by
  obtain ⟨entries, he, hl⟩ := Option.bind_eq_some_iff.mp h
  obtain rfl := entries?_eq_some_iff.mp he
  exact hu.entry (mem_of_lookup_eq_some hl)

theorem UniqueKeys.eq_of_mem {entries : Entries Json} {key : String} {value other : Json}
    (hu : (object entries).UniqueKeys) (hv : (key, value) ∈ entries)
    (ho : (key, other) ∈ entries) : value = other :=
  congrArg Prod.snd (List.inj_on_of_nodup_map hu.keys hv ho rfl)

/-! ## Parts of values that are alike -/

namespace Alike

theorem refl {value : Json} (h : value.UniqueKeys) : value.Alike value := ⟨h, .refl value⟩

theorem forall₂_elements {elements others : List Json}
    (h : (array elements).Alike (array others)) : List.Forall₂ Alike elements others := by
  have hu : ∀ element ∈ elements, element.UniqueKeys := fun _ he => h.uniqueKeys.element he
  have hr : List.Forall₂ Reordered elements others := by
    cases h.reordered with
    | refl => exact List.forall₂_same.mpr fun element _ => .refl element
    | array hr => exact hr
  exact ((List.forall₂_and_left _ _).mpr ⟨hu, hr⟩).imp fun _ _ h => ⟨h.1, h.2⟩

/-- The entries of alike objects match one by one, up to their order. -/
theorem exists_forall₂_entries {entries others : Entries Json}
    (h : (object entries).Alike (object others)) : ∃ middle : Entries Json,
      List.Forall₂ (fun entry other => entry.1 = other.1 ∧ entry.2.Alike other.2) entries middle ∧
        middle.Perm others := by
  have hu : ∀ entry ∈ entries, entry.2.UniqueKeys := fun _ he => h.uniqueKeys.entry he
  cases h.reordered with
  | refl =>
      refine ⟨entries, List.forall₂_same.mpr ?_, .refl _⟩
      exact fun entry he => ⟨rfl, refl (hu entry he)⟩
  | @object _ middle _ hk hv hp =>
      rw [← List.forall₂_eq_eq_eq, List.forall₂_map_left_iff, List.forall₂_map_right_iff] at hk
      rw [List.forall₂_map_left_iff, List.forall₂_map_right_iff] at hv
      refine ⟨middle, ?_, hp⟩
      refine .mp ?_ hk ((List.forall₂_and_left _ _).mpr ⟨hu, hv⟩)
      exact fun _ _ hk hv => ⟨hk, hv.1, hv.2⟩

/-- A function that does not tell alike values apart takes the entries of alike objects to the same
items, up to their order. -/
theorem map_entries {β : Type} {f : String → Json → β} {entries others : Entries Json}
    (h : (object entries).Alike (object others))
    (hf : ∀ entry ∈ entries, ∀ value, entry.2.Alike value → f entry.1 entry.2 = f entry.1 value) :
    (entries.map fun entry => f entry.1 entry.2).Perm
      (others.map fun entry => f entry.1 entry.2) := by
  obtain ⟨middle, hm, hp⟩ := h.exists_forall₂_entries
  refine .trans (.of_eq (map_eq_map_of_forall₂ hm ?_)) (hp.map _)
  intro entry he other ho
  rw [hf entry he other.2 ho.2, ho.1]

theorem filterMap_entries {β : Type} {f : String → Json → Option β} {entries others : Entries Json}
    (h : (object entries).Alike (object others))
    (hf : ∀ entry ∈ entries, ∀ value, entry.2.Alike value → f entry.1 entry.2 = f entry.1 value) :
    (entries.filterMap fun entry => f entry.1 entry.2).Perm
      (others.filterMap fun entry => f entry.1 entry.2) := by
  have hp := (h.map_entries hf).filterMap id
  rwa [List.filterMap_map, List.filterMap_map] at hp

theorem keys {entries others : Entries Json} (h : (object entries).Alike (object others)) :
    (entries.map Prod.fst).Perm (others.map Prod.fst) :=
  h.map_entries (f := fun key _ => key) fun _ _ _ _ => rfl

theorem lookup {entries others : Entries Json} (h : (object entries).Alike (object others))
    (key : String) : Option.Rel Alike (entries.lookup key) (others.lookup key) := by
  obtain ⟨middle, hm, hp⟩ := h.exists_forall₂_entries
  have hk : entries.map Prod.fst = middle.map Prod.fst :=
    map_eq_map_of_forall₂ hm fun _ _ _ ho => ho.1
  rw [← Entries.lookup_of_perm (hk ▸ h.uniqueKeys.keys) hp]
  clear h hp hk
  induction hm with
  | nil => exact .none
  | cons ho _ ih =>
      rw [Entries.lookup_cons, Entries.lookup_cons, ho.1]
      split
      · exact .some ho.2
      · exact ih

theorem sameShape {value other : Json} (h : value.Alike other) : value.SameShape other := by
  cases h.reordered with
  | refl => exact .refl value
  | array _ => exact .array _ _
  | object _ _ _ => exact .object _ _

theorem entries? {value other : Json} (h : value.Alike other) :
    Option.Rel (fun entries others => (object entries).Alike (object others))
    value.entries? other.entries? :=
  h.sameShape.rel_entries? h

theorem elements? {value other : Json} (h : value.Alike other) :
    Option.Rel (List.Forall₂ Alike) value.elements? other.elements? :=
  rel_imp (h.sameShape.rel_elements? h) fun _ _ he => he.forall₂_elements

theorem string? {value other : Json} (h : value.Alike other) :
    value.string? = other.string? :=
  h.sameShape.string?

theorem scalarText? {value other : Json} (h : value.Alike other) :
    value.scalarText? = other.scalarText? :=
  h.sameShape.scalarText?

theorem filledText? {value other : Json} (h : value.Alike other) :
    value.filledText? = other.filledText? :=
  h.sameShape.filledText?

theorem get? {value other : Json} (h : value.Alike other) (key : String) :
    Option.Rel Alike (value.get? key) (other.get? key) :=
  rel_bind h.entries? fun _ _ he => he.lookup key

end Alike

end Json

end ApiLint
