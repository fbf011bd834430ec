import ApiLint.Json.Basic
import Mathlib.Data.List.Forall2

/-! Lists and options with related items, and values that differ at most inside an array or an
object. -/

namespace ApiLint

theorem map_eq_map_of_forall₂ {α α' β : Type} {r : α → α' → Prop} {f : α → β} {g : α' → β}
    {items : List α} {others : List α'} (h : List.Forall₂ r items others)
    (hf : ∀ item ∈ items, ∀ other, r item other → f item = g other) :
    items.map f = others.map g := by
  rw [← List.forall₂_eq_eq_eq, List.forall₂_map_left_iff, List.forall₂_map_right_iff]
  have hm := (List.forall₂_and_left _ _).mpr ⟨fun _ hi => hi, h⟩
  exact hm.imp fun item other ho => hf item ho.1 other ho.2

/-- Related lists where there are any. -/
theorem map_getD_eq_map_of_rel {α α' β : Type} {r : α → α' → Prop} {f : α → β} {g : α' → β}
    {items? : Option (List α)} {others? : Option (List α')}
    (h : Option.Rel (List.Forall₂ r) items? others?)
    (hf : ∀ item other, r item other → f item = g other) :
    (items?.getD []).map f = (others?.getD []).map g := by
  cases h with
  | none => rfl
  | some h => exact map_eq_map_of_forall₂ h fun item _ => hf item

theorem none_or_some_of_rel {α α' : Type} {r : α → α' → Prop} {item? : Option α}
    {other? : Option α'} (h : Option.Rel r item? other?) :
    item? = none ∧ other? = none ∨
      ∃ item other, item? = some item ∧ other? = some other ∧ r item other := by
  cases h with
  | none => exact .inl ⟨rfl, rfl⟩
  | some hr => exact .inr ⟨_, _, rfl, rfl, hr⟩

theorem rel_imp {α α' : Type} {r s : α → α' → Prop} {item? : Option α} {other? : Option α'}
    (h : Option.Rel r item? other?) (hs : ∀ item other, r item other → s item other) :
    Option.Rel s item? other? := by
  cases h with
  | none => exact .none
  | some hr => exact .some (hs _ _ hr)

theorem rel_bind {α α' β β' : Type} {r : α → α' → Prop} {s : β → β' → Prop} {f : α → Option β}
    {g : α' → Option β'} {item? : Option α} {other? : Option α'} (h : Option.Rel r item? other?)
    (hf : ∀ item other, r item other → Option.Rel s (f item) (g other)) :
    Option.Rel s (item?.bind f) (other?.bind g) := by
  cases h with
  | none => exact .none
  | some hr => exact hf _ _ hr

theorem map_eq_map_of_rel {α α' β : Type} {r : α → α' → Prop} {f : α → β} {g : α' → β}
    {item? : Option α} {other? : Option α'} (h : Option.Rel r item? other?)
    (hf : ∀ item ∈ item?, ∀ other, r item other → f item = g other) :
    item?.map f = other?.map g := by
  cases h with
  | none => rfl
  | some hr => exact congrArg some (hf _ rfl _ hr)

theorem bind_eq_bind_of_rel {α α' β : Type} {r : α → α' → Prop} {f : α → Option β}
    {g : α' → Option β} {item? : Option α} {other? : Option α'} (h : Option.Rel r item? other?)
    (hf : ∀ item other, r item other → f item = g other) : item?.bind f = other?.bind g := by
  cases h with
  | none => rfl
  | some hr => exact hf _ _ hr

namespace Json

/-- The same scalar, two arrays or two objects. -/
inductive SameShape : Json → Json → Prop where
  | refl (value) : SameShape value value
  | array (elements others) : SameShape (.array elements) (.array others)
  | object (entries others) : SameShape (.object entries) (.object others)

namespace SameShape

variable {r : Json → Json → Prop} {value other : Json}

theorem rel_entries? (hs : value.SameShape other) (h : r value other) :
    Option.Rel (fun entries others => r (.object entries) (.object others))
      value.entries? other.entries? := by
  cases hs with
  | refl =>
      cases value with
      | object entries => exact .some h
      | _ => exact .none
  | array _ _ => exact .none
  | object _ _ => exact .some h

theorem rel_elements? (hs : value.SameShape other) (h : r value other) :
    Option.Rel (fun elements others => r (.array elements) (.array others))
      value.elements? other.elements? := by
  cases hs with
  | refl =>
      cases value with
      | array elements => exact .some h
      | _ => exact .none
  | array _ _ => exact .some h
  | object _ _ => exact .none

theorem string? (hs : value.SameShape other) : value.string? = other.string? := by
  cases hs <;> rfl

theorem scalarText? (hs : value.SameShape other) : value.scalarText? = other.scalarText? := by
  cases hs <;> rfl

theorem filledText? (hs : value.SameShape other) : value.filledText? = other.filledText? := by
  rw [Json.filledText?, Json.filledText?, hs.scalarText?]

end SameShape

end Json

end ApiLint
