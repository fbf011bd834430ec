import ApiLint.Yaml.Value
import ApiLint.Yaml.Merge

/-! The values inside a YAML value. Keys are left out: what stands in them is neither merged nor
told apart by its place. -/

namespace ApiLint.Yaml.Value

theorem sizeOf_lt_of_mem_items {item : Value} {items : List Value} (h : item ∈ items) :
    sizeOf item < sizeOf (sequence items) := by
  have := List.sizeOf_lt_of_mem h
  rw [sequence.sizeOf_spec]
  omega

theorem sizeOf_lt_of_mem_entries {entry : Value × Value} {entries : List (Value × Value)}
    (h : entry ∈ entries) : sizeOf entry.2 < sizeOf (mapping entries) := by
  have := sizeOf_of_mem h
  rw [mapping.sizeOf_spec]
  omega

/-- Induction on values that assumes nothing about keys. -/
theorem induction {motive : Value → Prop} (scalar : ∀ value, motive (.scalar value))
    (sequence : ∀ items, (∀ item ∈ items, motive item) → motive (.sequence items))
    (mapping : ∀ entries, (∀ entry ∈ entries, motive entry.2) → motive (.mapping entries))
    (tagged : ∀ name value, motive value → motive (.tagged name value)) :
    ∀ value, motive value
  | .scalar value => scalar value
  | .sequence items =>
      sequence items fun item _ => induction scalar sequence mapping tagged item
  | .mapping entries =>
      mapping entries fun entry _ => induction scalar sequence mapping tagged entry.2
  | .tagged name value => tagged name value (induction scalar sequence mapping tagged value)
termination_by value => sizeOf value
decreasing_by
  · exact sizeOf_lt_of_mem_items ‹_›
  · exact sizeOf_lt_of_mem_entries ‹_›
  · simp only [Value.tagged.sizeOf_spec]; omega

/-- The values inside a value, itself among them. -/
inductive Contains : Value → Value → Prop
  | self (value) : Contains value value
  | item {items item part} : item ∈ items → Contains item part → Contains (.sequence items) part
  | entry {entries entry part} : entry ∈ entries → Contains entry.2 part →
      Contains (.mapping entries) part
  | tagged {name value part} : Contains value part → Contains (.tagged name value) part

theorem Contains.trans {whole part piece : Value} (h : whole.Contains part)
    (hp : part.Contains piece) : whole.Contains piece := by
  induction h with
  | self => exact hp
  | item hi _ ih => exact .item hi (ih hp)
  | entry he _ ih => exact .entry he (ih hp)
  | tagged _ ih => exact .tagged (ih hp)

/-- A condition on the entries of every mapping inside a value. -/
def EveryMapping (condition : List (Value × Value) → Prop) (value : Value) : Prop :=
  ∀ entries, value.Contains (.mapping entries) → condition entries

section

variable {condition : List (Value × Value) → Prop}

@[simp] theorem everyMapping_scalar (value : Scalar) : EveryMapping condition (.scalar value) := by
  intro entries h
  cases h

@[simp] theorem everyMapping_sequence_iff {items : List Value} :
    EveryMapping condition (.sequence items) ↔ ∀ item ∈ items, EveryMapping condition item := by
  constructor
  · intro h item hi entries hc
    exact h entries (.item hi hc)
  · intro h entries hc
    cases hc with
    | item hi hc => exact h _ hi entries hc

@[simp] theorem everyMapping_mapping_iff {entries : List (Value × Value)} :
    EveryMapping condition (.mapping entries) ↔
      condition entries ∧ ∀ entry ∈ entries, EveryMapping condition entry.2 := by
  constructor
  · intro h
    exact ⟨h entries (.self _), fun entry he inner hc => h inner (.entry he hc)⟩
  · intro h inner hc
    cases hc with
    | self => exact h.1
    | entry he hc => exact h.2 _ he inner hc

@[simp] theorem everyMapping_tagged_iff {name : String} {value : Value} :
    EveryMapping condition (.tagged name value) ↔ EveryMapping condition value := by
  constructor
  · intro h entries hc
    exact h entries (.tagged hc)
  · intro h entries hc
    cases hc with
    | tagged hc => exact h entries hc

end

/-- No mapping holds two equal keys. -/
def UniqueKeys : Value → Prop :=
  EveryMapping fun entries => entries.Pairwise fun first second => first.1.same second.1 = false

end ApiLint.Yaml.Value
