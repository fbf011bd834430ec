import ApiLint.Text.Ascii
import Mathlib.Data.List.Basic
import Mathlib.Data.List.TakeDrop
import Mathlib.Data.List.TakeWhile

/-! Texts that are put together from parts. Parts that do not hold the separator can be told from
the whole. -/

namespace ApiLint

/-! ## Digits and letters -/

theorem toString_inj {m n : Nat} (h : toString m = toString n) : m = n := by
  have hl := congrArg String.toList h
  simp only [Nat.toString_eq_repr, Nat.toList_repr] at hl
  rw [← Nat.ofDigitChars_ten_toDigits (n := m), hl, Nat.ofDigitChars_ten_toDigits]

theorem not_mem_toDigits {letter : Char} (h : letter.isDigit = false) (n : Nat) :
    letter ∉ Nat.toDigits 10 n := by
  intro hm
  rw [Nat.isDigit_of_mem_toDigits (by decide) (by decide) hm] at h
  cases h

theorem not_mem_toString {letter : Char} (h : letter.isDigit = false) (n : Nat) :
    letter ∉ (toString n).toList := by
  rw [Nat.toString_eq_repr, Nat.toList_repr]
  exact not_mem_toDigits h n

theorem isDecimalDigit_iff {letter : Char} :
    isDecimalDigit letter ↔ letter ∈ "0123456789".toList := by
  constructor
  · intro h
    have hn : letter.toNat ∈ List.range' 48 10 := by
      simp only [isDecimalDigit, Char.le_def, decide_eq_true_eq, UInt32.le_iff_toNat_le] at h
      rw [List.mem_range'_1]
      exact ⟨h.1, Nat.lt_succ_of_le h.2⟩
    have hm : letter ∈ (List.range' 48 10).map Char.ofNat :=
      List.mem_map.mpr ⟨letter.toNat, hn, Char.ofNat_toNat letter⟩
    exact hm
  · intro h
    exact List.all_eq_true.mp (by decide) letter h

/-- The leading digits go on as far as they can. -/
theorem leadingDigits_eq_iff {text digits rest : List Char} :
    leadingDigits text = (digits, rest) ↔ text = digits ++ rest ∧
      (∀ letter ∈ digits, isDecimalDigit letter) ∧
        ∀ letter ∈ rest.head?, isDecimalDigit letter = false := by
  rw [leadingDigits, List.span_eq_takeWhile_dropWhile, Prod.mk.injEq]
  constructor
  · rintro ⟨rfl, rfl⟩
    refine ⟨List.takeWhile_append_dropWhile.symm, fun _ => List.mem_takeWhile_imp, ?_⟩
    intro letter hl
    have hh := List.head?_dropWhile_not isDecimalDigit text
    rw [hl] at hh
    exact hh
  · rintro ⟨rfl, hd, hr⟩
    rw [List.takeWhile_append_of_pos hd, List.dropWhile_append_of_pos hd]
    cases rest with
    | nil => simp
    | cons letter rest => simp [hr letter rfl]

theorem toNat_toLower (letter : Char) :
    letter.toLower.toNat =
      if 65 ≤ letter.toNat ∧ letter.toNat ≤ 90 then letter.toNat + 32 else letter.toNat := by
  unfold Char.toLower
  split
  · rename_i h
    have hb : 65 ≤ letter.toNat ∧ letter.toNat ≤ 90 := h
    have ha : (letter.val + ('a'.val - 'A'.val)).toNat = (letter.toNat + 32) % 2 ^ 32 :=
      UInt32.toNat_add _ _
    rw [if_pos hb, ← Nat.mod_eq_of_lt (show letter.toNat + 32 < 2 ^ 32 by omega), ← ha]
    rfl
  · rename_i h
    have hb : ¬(65 ≤ letter.toNat ∧ letter.toNat ≤ 90) := h
    rw [if_neg hb]

/-- No letter turns into a mark, and every mark stays what it is. -/
theorem toLower_eq_iff {mark letter : Char} (h : mark.isAlpha = false) :
    letter.toLower = mark ↔ letter = mark := by
  obtain ⟨hu, hl⟩ : mark.isUpper = false ∧ mark.isLower = false := Bool.or_eq_false_iff.mp h
  have hu : ¬(65 ≤ mark.toNat ∧ mark.toNat ≤ 90) := of_decide_eq_false hu
  have hl : ¬(97 ≤ mark.toNat ∧ mark.toNat ≤ 122) :=
    of_decide_eq_false ((Bool.decide_and _ _).trans hl)
  rw [← Char.toNat_inj, ← Char.toNat_inj, toNat_toLower]
  split <;> omega

theorem toList_asciiLower (text : String) :
    (asciiLower text).toList = text.toList.map Char.toLower :=
  String.toList_map

theorem asciiLower_eq_iff {text other : String} :
    asciiLower text = asciiLower other ↔
      text.toList.map Char.toLower = other.toList.map Char.toLower := by
  rw [← String.toList_inj, toList_asciiLower, toList_asciiLower]

theorem dot_mem_asciiLower {text : String} (h : '.' ∈ text.toList) :
    '.' ∈ (asciiLower text).toList := by
  rw [toList_asciiLower]
  exact List.mem_map.mpr ⟨'.', h, by decide⟩

/-! ## Parts of a list -/

/-- Replacing items moves no separator. -/
theorem splitOn_map {α β : Type} [BEq α] [LawfulBEq α] [BEq β] [LawfulBEq β] {f : α → β}
    {separator : α} {separator' : β} (h : ∀ item, f item = separator' ↔ item = separator)
    (items : List α) :
    (items.map f).splitOn separator' = (items.splitOn separator).map (List.map f) := by
  induction items with
  | nil => rfl
  | cons item rest ih =>
      rw [List.map_cons, List.splitOn_cons_eq_if_modifyHead, List.splitOn_cons_eq_if_modifyHead, ih]
      by_cases hi : item = separator
      · rw [if_pos (beq_iff_eq.mpr ((h item).mpr hi)), if_pos (beq_iff_eq.mpr hi)]
        rfl
      · rw [if_neg fun he => hi ((h item).mp (beq_iff_eq.mp he)), if_neg (mt beq_iff_eq.mp hi)]
        cases rest.splitOn separator <;> rfl

section

variable {α : Type}

theorem flatMap_cons_append (separator : α) (parts : List (List α)) :
    parts.flatMap (separator :: ·) ++ [separator] =
      separator :: parts.flatMap (· ++ [separator]) := by
  induction parts with
  | nil => rfl
  | cons part rest ih =>
      simp only [List.flatMap_cons, List.append_assoc, ih, List.cons_append, List.nil_append]

variable [BEq α] [LawfulBEq α] {separator : α}

theorem splitOn_flatMap_append {parts : List (List α)} (h : ∀ part ∈ parts, separator ∉ part) :
    (parts.flatMap (· ++ [separator])).splitOn separator = parts ++ [[]] := by
  induction parts with
  | nil => rfl
  | cons part rest ih =>
      obtain ⟨hp, hr⟩ := List.forall_mem_cons.mp h
      rw [List.flatMap_cons, List.append_assoc, List.singleton_append,
        List.splitOn_append_cons_self_of_not_mem hp, ih hr, List.cons_append]

/-- Parts with a separator behind each of them. -/
theorem flatMap_append_inj {parts others : List (List α)} (hp : ∀ part ∈ parts, separator ∉ part)
    (ho : ∀ part ∈ others, separator ∉ part)
    (h : parts.flatMap (· ++ [separator]) = others.flatMap (· ++ [separator])) :
    parts = others := by
  have hs := congrArg (List.splitOn separator) h
  rw [splitOn_flatMap_append hp, splitOn_flatMap_append ho] at hs
  exact List.append_cancel_right hs

/-- Parts with a separator in front of each of them. -/
theorem flatMap_cons_inj {parts others : List (List α)} (hp : ∀ part ∈ parts, separator ∉ part)
    (ho : ∀ part ∈ others, separator ∉ part)
    (h : parts.flatMap (separator :: ·) = others.flatMap (separator :: ·)) : parts = others := by
  have he := congrArg (· ++ [separator]) h
  simp only [flatMap_cons_append, List.cons.injEq, true_and] at he
  exact flatMap_append_inj hp ho he

end

/-! ## Texts with separators -/

section

variable {separator : Char} {texts others : List String}
  (ht : ∀ text ∈ texts, separator ∉ text.toList) (ho : ∀ text ∈ others, separator ∉ text.toList)
include ht ho

theorem eq_of_flatMap_append_eq
    (h : (texts.map String.toList).flatMap (· ++ [separator]) =
      (others.map String.toList).flatMap (· ++ [separator])) : texts = others :=
  List.map_injective_iff.mpr (fun _ _ => String.toList_inj.mp)
    (flatMap_append_inj (List.forall_mem_map.mpr ht) (List.forall_mem_map.mpr ho) h)

theorem eq_of_flatMap_cons_eq
    (h : (texts.map String.toList).flatMap (separator :: ·) =
      (others.map String.toList).flatMap (separator :: ·)) : texts = others :=
  List.map_injective_iff.mpr (fun _ _ => String.toList_inj.mp)
    (flatMap_cons_inj (List.forall_mem_map.mpr ht) (List.forall_mem_map.mpr ho) h)

end

theorem intercalate_cons (separator text : String) (after : List String) :
    separator.intercalate (text :: after) = text ++ String.join (after.map (separator ++ ·)) := by
  induction after generalizing text with
  | nil => rw [String.intercalate_singleton, List.map_nil, String.join_nil, String.append_empty]
  | cons next after ih =>
      rw [String.intercalate_cons_cons, ih, List.map_cons, String.join_cons, String.append_assoc,
        String.append_assoc]

/-- What stands around one of several texts does not depend on it. -/
theorem intercalate_append_cons (separator : String) (before : List String) (text : String)
    (after : List String) :
    separator.intercalate (before ++ text :: after) =
      String.join (before.map (· ++ separator)) ++ text ++
        String.join (after.map (separator ++ ·)) := by
  induction before with
  | nil =>
      rw [List.nil_append, intercalate_cons, List.map_nil, String.join_nil, String.empty_append]
  | cons first before ih =>
      rw [List.cons_append, String.intercalate_cons_of_ne_nil (by simp), ih, List.map_cons,
        String.join_cons]
      simp only [String.append_assoc]

/-- A line of its own for each text is a longer separator. -/
theorem intercalate_map_append (separator indent : String) (text : String) (after : List String) :
    separator.intercalate ((text :: after).map (indent ++ ·)) =
      indent ++ (separator ++ indent).intercalate (text :: after) := by
  rw [List.map_cons, intercalate_cons, intercalate_cons, List.map_map]
  simp only [String.append_assoc, Function.comp_def]

theorem append_intercalate (separator : String) {texts : List String} (h : texts ≠ []) :
    separator ++ separator.intercalate texts = String.join (texts.map (separator ++ ·)) := by
  cases texts with
  | nil => exact absurd rfl h
  | cons text after =>
      rw [intercalate_cons, List.map_cons, String.join_cons, String.append_assoc]

theorem not_mem_intercalate {letter : Char} {separator : String} {texts : List String}
    (hs : letter ∉ separator.toList) (ht : ∀ text ∈ texts, letter ∉ text.toList) :
    letter ∉ (separator.intercalate texts).toList := by
  cases texts with
  | nil => simp
  | cons text after =>
      intro hm
      have hj : letter ∈ (separator ++ separator.intercalate (text :: after)).toList := by
        rw [String.toList_append]
        exact List.mem_append_right _ hm
      rw [append_intercalate _ (List.cons_ne_nil _ _), String.toList_join, List.flatMap_map] at hj
      obtain ⟨part, hp, hl⟩ := List.mem_flatMap.mp hj
      rw [String.toList_append] at hl
      exact (List.mem_append.mp hl).elim hs (ht part hp)

/-- Texts without commas can be told from their enumeration. -/
theorem intercalate_comma_inj {texts others : List String} (ht : texts ≠ []) (ho : others ≠ [])
    (hc : ∀ text ∈ texts, ',' ∉ text.toList) (hc' : ∀ text ∈ others, ',' ∉ text.toList)
    (h : ", ".intercalate texts = ", ".intercalate others) : texts = others := by
  have hj {texts : List String} (ht : texts ≠ []) :
      (", " ++ ", ".intercalate texts).toList =
        (texts.map fun text => ' ' :: text.toList).flatMap (',' :: ·) := by
    rw [append_intercalate _ ht, String.toList_join, List.flatMap_map, List.flatMap_map]
    refine List.flatMap_congr fun text _ => ?_
    simp
  have hf : (texts.map fun text => ' ' :: text.toList).flatMap (',' :: ·) =
      (others.map fun text => ' ' :: text.toList).flatMap (',' :: ·) := by
    rw [← hj ht, ← hj ho, h]
  have hi : Function.Injective fun text : String => ' ' :: text.toList :=
    fun _ _ he => String.toList_inj.mp (List.cons.inj he).2
  refine List.map_injective_iff.mpr hi (flatMap_cons_inj ?_ ?_ hf)
  · exact List.forall_mem_map.mpr fun text hm => by simpa using hc text hm
  · exact List.forall_mem_map.mpr fun text hm => by simpa using hc' text hm

end ApiLint
