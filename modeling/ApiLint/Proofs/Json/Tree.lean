import ApiLint.Json.Basic

/-! The values inside a JSON value, and conditions on all of them. -/

namespace ApiLint.Json

theorem sizeOf_lt_of_mem_elements {element : Json} {elements : List Json}
    (h : element ∈ elements) : sizeOf element < sizeOf (array elements) := by
  have := List.sizeOf_lt_of_mem h
  rw [array.sizeOf_spec]
  omega

theorem sizeOf_lt_of_mem_entries {entry : String × Json} {entries : Entries Json}
    (h : entry ∈ entries) : sizeOf entry.2 < sizeOf (object entries) := by
  have := List.sizeOf_lt_of_mem h
  obtain ⟨key, value⟩ := entry
  simp only [Prod.mk.sizeOf_spec, object.sizeOf_spec] at this ⊢
  omega

theorem induction {motive : Json → Prop} (null : motive .null)
    (bool : ∀ value, motive (.bool value)) (number : ∀ value, motive (.number value))
    (string : ∀ text, motive (.string text))
    (array : ∀ elements, (∀ element ∈ elements, motive element) → motive (.array elements))
    (object : ∀ entries, (∀ entry ∈ entries, motive entry.2) → motive (.object entries)) :
    ∀ value, motive value
  | .null => null
  | .bool value => bool value
  | .number value => number value
  | .string text => string text
  | .array elements =>
      array elements fun element _ => induction null bool number string array object element
  | .object entries =>
      object entries fun entry _ => induction null bool number string array object entry.2
termination_by value => sizeOf value
decreasing_by
  · exact sizeOf_lt_of_mem_elements ‹_›
  · exact sizeOf_lt_of_mem_entries ‹_›

/-- The values inside a value, itself among them. -/
inductive Contains : Json → Json → Prop
  | self (value) : Contains value value
  | element {elements element part} : element ∈ elements → Contains element part →
      Contains (.array elements) part
  | entry {entries entry part} : entry ∈ entries → Contains entry.2 part →
      Contains (.object entries) part

/-- A value without parts contains only itself. -/
theorem Contains.eq_of_leaf {value part : Json} (h : value.Contains part)
    (he : value.entries? = none) (hl : value.elements? = none) : part = value := by
  cases h with
  | self => rfl
  | element => cases hl
  | entry => cases he

/-- A condition on every value inside a value. -/
def Everywhere (condition : Json → Prop) (value : Json) : Prop :=
  ∀ part, value.Contains part → condition part

section

variable {condition : Json → Prop}

theorem Everywhere.self {value : Json} (h : Everywhere condition value) : condition value :=
  h value (.self value)

@[simp] theorem everywhere_null_iff : Everywhere condition .null ↔ condition .null := by
  refine ⟨Everywhere.self, fun h part hc => ?_⟩
  cases hc
  exact h

@[simp] theorem everywhere_bool_iff {value : Bool} :
    Everywhere condition (.bool value) ↔ condition (.bool value) := by
  refine ⟨Everywhere.self, fun h part hc => ?_⟩
  cases hc
  exact h

@[simp] theorem everywhere_number_iff {value : Number} :
    Everywhere condition (.number value) ↔ condition (.number value) := by
  refine ⟨Everywhere.self, fun h part hc => ?_⟩
  cases hc
  exact h

@[simp] theorem everywhere_string_iff {text : String} :
    Everywhere condition (.string text) ↔ condition (.string text) := by
  refine ⟨Everywhere.self, fun h part hc => ?_⟩
  cases hc
  exact h

@[simp] theorem everywhere_array_iff {elements : List Json} :
    Everywhere condition (.array elements) ↔
      condition (.array elements) ∧ ∀ element ∈ elements, Everywhere condition element := by
  constructor
  · intro h
    exact ⟨h.self, fun element he part hc => h part (.element he hc)⟩
  · intro h part hc
    cases hc with
    | self => exact h.1
    | element he hc => exact h.2 _ he part hc

@[simp] theorem everywhere_object_iff {entries : Entries Json} :
    Everywhere condition (.object entries) ↔
      condition (.object entries) ∧ ∀ entry ∈ entries, Everywhere condition entry.2 := by
  constructor
  · intro h
    exact ⟨h.self, fun entry he part hc => h part (.entry he hc)⟩
  · intro h part hc
    cases hc with
    | self => exact h.1
    | entry he hc => exact h.2 _ he part hc

end

/-- No object holds a key twice. -/
def UniqueKeys : Json → Prop := Everywhere fun
  | .object entries => (entries.map Prod.fst).Nodup
  | _ => True

end ApiLint.Json
