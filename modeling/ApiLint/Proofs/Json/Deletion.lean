import ApiLint.Document.Paths
import ApiLint.Proofs.Entries
import ApiLint.Proofs.Json.Related
import Mathlib.Logic.Relation

/-! Which entries of a value are read, told by where they stand, and values from which an entry that
is not read was taken away. What is read from such a value is the same as before. -/

namespace ApiLint

/-- What a value is read as. Nothing is read inside a plain value. -/
inductive Role where
  | document
  | info
  | paths
  | pathItem
  | operation
  | responses
  | response
  | content
  | mediaType
  | components
  | schemas
  | schema
  | properties
  | alternatives
  | declaredTags
  | declaredTag
  | plain

namespace Role

/-- The keys that are read, with what stands under them, where they are fixed. -/
def fields : Role → Entries Role
  | document => [("openapi", plain), ("info", info), ("paths", paths), ("components", components),
      ("tags", declaredTags)]
  | info => [("title", plain), ("version", plain)]
  | operation => [("responses", responses), ("tags", plain), ("summary", plain),
      ("description", plain)]
  | response => [("content", content)]
  | mediaType => [("schema", schema)]
  | components => [("schemas", schemas)]
  | schema => [("type", plain), ("properties", properties), ("items", schema),
      ("oneOf", alternatives), ("allOf", alternatives), ("anyOf", alternatives)]
  | declaredTag => [("name", plain)]
  | _ => []

/-- What the value under a key is read as, if the key is read. -/
def under? : Role → String → Option Role
  | paths, _ => some pathItem
  | pathItem, key => (HttpMethod.ofKey? key).map fun _ => operation
  | responses, _ => some response
  | content, _ => some mediaType
  | schemas, _ => some schema
  | properties, _ => some schema
  | role, key => role.fields.lookup key

/-- What an element is read as. -/
def element : Role → Role
  | alternatives => schema
  | declaredTags => declaredTag
  | _ => plain

end Role

namespace Json

/-- One entry, at any depth, is taken away that is not read where it stands. -/
inductive Deletion : Role → Json → Json → Prop where
  | here {role before key value after} : role.under? key = none →
      Deletion role (.object (before ++ (key, value) :: after)) (.object (before ++ after))
  | entry {role before key value other after} :
      Deletion ((role.under? key).getD .plain) value other →
      Deletion role (.object (before ++ (key, value) :: after))
        (.object (before ++ (key, other) :: after))
  | element {role before value other after} : Deletion role.element value other →
      Deletion role (.array (before ++ value :: after)) (.array (before ++ other :: after))

/-- At most one entry is taken away. -/
def Trimmed (role : Role) (value other : Json) : Prop := value = other ∨ Deletion role value other

namespace Trimmed

variable {role below : Role} {value other : Json}

theorem refl (value : Json) : Trimmed role value value := .inl rfl

theorem sameShape (h : Trimmed role value other) : value.SameShape other := by
  rcases h with rfl | h
  · exact .refl value
  · cases h with
    | here _ => exact .object _ _
    | entry _ => exact .object _ _
    | element _ => exact .array _ _

theorem entries? (h : Trimmed role value other) :
    Option.Rel (fun entries others => Trimmed role (.object entries) (.object others))
      value.entries? other.entries? :=
  h.sameShape.rel_entries? h

/-- Under a key that is read there is the same as before, but for an entry that is not read. -/
theorem lookup {entries others : Entries Json}
    (h : Trimmed role (.object entries) (.object others)) (key : String)
    (hk : role.under? key = some below) :
    Option.Rel (Trimmed below) (entries.lookup key) (others.lookup key) := by
  have same (value? : Option Json) : Option.Rel (Trimmed below) value? value? := by
    cases value? with
    | none => exact .none
    | some value => exact .some (refl value)
  rcases h with he | h
  · obtain rfl := object.inj he
    exact same _
  · cases h with
    | @here _ before deleted _ after hd =>
        -- The lookup passes over the entry, as its key is not read.
        have hne : key ≠ deleted := by
          rintro rfl
          rw [hk] at hd
          cases hd
        rw [List.lookup_append, List.lookup_append, Entries.lookup_cons, if_neg hne]
        exact same _
    | @entry _ before changed _ _ after hd =>
        -- The changed entry is found only if no entry before it has its key.
        rw [List.lookup_append, List.lookup_append, Entries.lookup_cons, Entries.lookup_cons]
        cases before.lookup key with
        | some value => exact same _
        | none =>
            by_cases he : key = changed
            · subst he
              rw [hk] at hd
              simp only [Option.none_or, if_true]
              exact .some (.inr hd)
            · simp only [Option.none_or, he, if_false]
              exact same _

theorem get? (h : Trimmed role value other) (key : String) (hk : role.under? key = some below) :
    Option.Rel (Trimmed below) (value.get? key) (other.get? key) :=
  rel_bind h.entries? fun _ _ he => he.lookup key hk

/-- A function that skips entries that are not read, and does not tell the values of the others
apart, finds the same. -/
theorem filterMap_entries {β : Type} {f : String → Json → Option β} {entries others : Entries Json}
    (h : Trimmed role (.object entries) (.object others))
    (hn : ∀ key value, role.under? key = none → f key value = none)
    (hf : ∀ entry ∈ entries, ∀ below, role.under? entry.1 = some below →
      ∀ value, Trimmed below entry.2 value → f entry.1 entry.2 = f entry.1 value) :
    entries.filterMap (fun entry => f entry.1 entry.2) =
      others.filterMap fun entry => f entry.1 entry.2 := by
  rcases h with he | h
  · rw [object.inj he]
  · cases h with
    | @here _ before key value after hd =>
        have he : f key value = none := hn key value hd
        rw [List.filterMap_append, List.filterMap_append, List.filterMap_cons]
        simp only [he]
    | @entry _ before key value changed after hd =>
        have he : f key value = f key changed := by
          cases hk : role.under? key with
          | none => rw [hn key value hk, hn key changed hk]
          | some below =>
              rw [hk] at hd
              exact hf (key, value) (by simp) below hk changed (.inr hd)
        rw [List.filterMap_append, List.filterMap_append, List.filterMap_cons, List.filterMap_cons]
        simp only [he]

/-- Where every key is read, no entry is skipped. -/
theorem map_entries {β : Type} {f : String → Json → β} {entries others : Entries Json}
    (h : Trimmed role (.object entries) (.object others))
    (ha : ∀ key, role.under? key = some below)
    (hf : ∀ entry ∈ entries, ∀ value, Trimmed below entry.2 value →
      f entry.1 entry.2 = f entry.1 value) :
    (entries.map fun entry => f entry.1 entry.2) = others.map fun entry => f entry.1 entry.2 := by
  rw [← List.filterMap_eq_map']
  refine h.filterMap_entries (f := fun key value => some (f key value)) ?_ ?_
  · intro key value hk
    rw [ha key] at hk
    cases hk
  · intro entry he below' hk value hv
    rw [ha entry.1] at hk
    obtain rfl := Option.some.inj hk
    exact congrArg some (hf entry he value hv)

theorem forall₂_elements {elements others : List Json}
    (h : Trimmed role (.array elements) (.array others)) :
    List.Forall₂ (Trimmed role.element) elements others := by
  have same (elements : List Json) : List.Forall₂ (Trimmed role.element) elements elements :=
    List.forall₂_same.mpr fun element _ => refl element
  rcases h with he | h
  · obtain rfl := array.inj he
    exact same _
  · cases h with
    | element hd => exact List.rel_append (same _) (.cons (.inr hd) (same _))

theorem elements? (h : Trimmed role value other) :
    Option.Rel (List.Forall₂ (Trimmed role.element)) value.elements? other.elements? :=
  rel_imp (h.sameShape.rel_elements? h) fun _ _ he => he.forall₂_elements

end Trimmed

end Json

end ApiLint
