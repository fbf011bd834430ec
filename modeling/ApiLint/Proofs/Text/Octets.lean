import Mathlib.Data.List.Lex

/-! The octets of texts. Texts are ordered as their octets are: a greater character has a greater
first octet, or the same octets up to a greater one. -/

namespace ApiLint

/-- The octets of a text. -/
def octets (text : String) : List UInt8 := text.toUTF8.data.toList

theorem octets_ofList (letters : List Char) :
    octets (String.ofList letters) = letters.flatMap String.utf8EncodeChar := by
  rw [octets, String.toUTF8, String.toByteArray_ofList, List.utf8Encode, List.data_toByteArray]

theorem octets_eq_flatMap (text : String) :
    octets text = text.toList.flatMap String.utf8EncodeChar := by
  rw [← octets_ofList, String.ofList_toList]

/-- The octets of a lesser character come first, whatever follows them. -/
theorem utf8EncodeChar_append_lt {letter other : Char} (h : letter < other)
    (rest rest' : List UInt8) :
    String.utf8EncodeChar letter ++ rest < String.utf8EncodeChar other ++ rest' := by
  have hlt : letter.val.toNat < other.val.toNat := h
  have hmax : other.val.toNat < 0x110000 := by
    rcases other.valid with hv | ⟨-, hv⟩
    · exact Nat.lt_trans hv (by decide)
    · exact hv
  have hlow (n : Nat) : n / 4096 = n / 64 / 64 := by omega
  have hhigh (n : Nat) : n / 262144 = n / 64 / 64 / 64 := by omega
  simp only [String.utf8EncodeChar]
  -- One case for each pair of lengths.
  split_ifs <;>
    simp only [List.cons_append, List.nil_append, List.cons_lt_cons_iff, UInt8.lt_iff_toNat_lt,
      ← UInt8.toNat_inj, UInt8.toNat_ofNat', hlow, hhigh] <;>
    omega

theorem flatMap_utf8EncodeChar_lt {letters others : List Char} (h : letters < others) :
    letters.flatMap String.utf8EncodeChar < others.flatMap String.utf8EncodeChar := by
  induction h with
  | @nil letter others =>
      rw [List.flatMap_cons]
      obtain ⟨octet, rest, he⟩ :=
        List.exists_cons_of_ne_nil (String.utf8EncodeChar_ne_nil (c := letter))
      rw [he]
      exact .nil
  | @cons letter letters others _ ih =>
      rw [List.flatMap_cons, List.flatMap_cons]
      exact List.append_left_lt ih
  | rel h => exact utf8EncodeChar_append_lt h _ _

/-- The order of texts is the one of their octets. -/
theorem octets_lt_octets_iff {text other : String} : octets text < octets other ↔ text < other := by
  have hlt {text other : String} (h : text < other) : octets text < octets other := by
    rw [octets_eq_flatMap, octets_eq_flatMap]
    exact flatMap_utf8EncodeChar_lt (String.lt_iff.mp h)
  refine ⟨fun h => ?_, hlt⟩
  rcases Std.lt_trichotomy text other with ho | rfl | ho
  · exact ho
  · exact absurd h (List.lt_irrefl _)
  · exact absurd h (List.lt_asymm (hlt ho))

theorem map_octets_lt {names others : List String} (h : names < others) :
    names.map octets < others.map octets := by
  induction h with
  | nil => exact .nil
  | cons _ ih => exact .cons ih
  | rel h => exact .rel (octets_lt_octets_iff.mpr h)

end ApiLint
