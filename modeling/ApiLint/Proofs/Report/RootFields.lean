import ApiLint.Check.Root
import ApiLint.Proofs.Document.Reading

/-! Root fields of related values. The checks tell apart whether a field is missing, an object or
something else, what is read from the information object and whether there are paths. -/

namespace ApiLint

variable {r : Json → Json → Prop} {value other : Json}

theorem checkInfo_of_rel (hs : ∀ {value other}, r value other → value.SameShape other)
    (h : Option.Rel r (value.get? "info") (other.get? "info"))
    (hi : ∀ value other, r value other → Info.ofJson value = Info.ofJson other)
    (found : Diagnostics) :
    checkInfo (.ofJson value) found = checkInfo (.ofJson other) found := by
  have hv : (Document.ofJson value).info = .ofJson Info.ofJson (value.get? "info") := rfl
  have ho : (Document.ofJson other).info = .ofJson Info.ofJson (other.get? "info") := rfl
  rw [checkInfo, checkInfo, hv, ho]
  rcases Field.ofJson_of_rel hs h with
    ⟨hv, ho⟩ | ⟨info, info', hv, ho⟩ | ⟨info, info', ha, hv, ho⟩
  · rw [hv, ho]
  · rw [hv, ho]
  · rw [hv, ho, hi info info' ha]

theorem checkPathsField_of_rel (hs : ∀ {value other}, r value other → value.SameShape other)
    (h : Option.Rel r (value.get? "paths") (other.get? "paths"))
    (hl : (Document.ofJson value).pathItems.length = (Document.ofJson other).pathItems.length)
    (found : Diagnostics) :
    checkPathsField (.ofJson value) found = checkPathsField (.ofJson other) found := by
  have hv : (Document.ofJson value).paths = .ofJson Paths.ofJson (value.get? "paths") := rfl
  have ho : (Document.ofJson other).paths = .ofJson Paths.ofJson (other.get? "paths") := rfl
  rw [Document.pathItems, Document.pathItems, hv, ho] at hl
  rw [checkPathsField, checkPathsField, hv, ho]
  rcases Field.ofJson_of_rel hs h with
    ⟨hv, ho⟩ | ⟨paths, paths', hv, ho⟩ | ⟨paths, paths', -, hv, ho⟩
  · rw [hv, ho]
  · rw [hv, ho]
  · rw [hv, ho] at hl ⊢
    have he : (Paths.ofJson paths).isEmpty = (Paths.ofJson paths').isEmpty := by
      rw [Bool.eq_iff_iff, List.isEmpty_iff_length_eq_zero, List.isEmpty_iff_length_eq_zero]
      exact hl ▸ Iff.rfl
    simp only [he]

end ApiLint
