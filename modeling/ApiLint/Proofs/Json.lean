import ApiLint.Json.Basic

/-! What the readers of a value find, told by the shape of the value. -/

namespace ApiLint

theorem mem_of_lookup_eq_some {κ α : Type} [BEq κ] [LawfulBEq κ] {entries : List (κ × α)} {key : κ}
    {value : α} (h : entries.lookup key = some value) : (key, value) ∈ entries := by
  obtain ⟨before, after, rfl, -⟩ := List.lookup_eq_some_iff.mp h
  exact List.mem_append_right _ List.mem_cons_self

theorem mem_getD_nil_iff {α : Type} {list? : Option (List α)} {item : α} :
    item ∈ list?.getD [] ↔ ∃ list, list? = some list ∧ item ∈ list := by
  cases list? <;> simp

theorem getElem?_getD_nil_iff {α : Type} {list? : Option (List α)} {index : Nat} {item : α} :
    (list?.getD [])[index]? = some item ↔ ∃ list, list? = some list ∧ list[index]? = some item := by
  cases list? <;> simp

namespace Json

@[simp] theorem entries?_eq_some_iff {value : Json} {entries : Entries Json} :
    value.entries? = some entries ↔ value = .object entries := by
  cases value <;> simp [entries?]

@[simp] theorem elements?_eq_some_iff {value : Json} {elements : List Json} :
    value.elements? = some elements ↔ value = .array elements := by
  cases value <;> simp [elements?]

@[simp] theorem string?_eq_some_iff {value : Json} {text : String} :
    value.string? = some text ↔ value = .string text := by
  cases value <;> simp [string?]

end Json

end ApiLint
