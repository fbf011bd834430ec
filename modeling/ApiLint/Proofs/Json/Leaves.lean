import ApiLint.Json.Parser
import ApiLint.Json.Text
import ApiLint.Proofs.Json
import ApiLint.Proofs.Text

/-! Strings and counts, read back from their written form. A count has to fit a machine word: the
digits of a greater number are read as a binary number, which keeps only some of them. -/

namespace ApiLint

namespace Json

/-! ## Strings -/

section

variable {letter : Char} (strict : Bool) (done rest : List Char)

theorem readString?_named {text : String} (h : (letter, text) ∈ namedEscapes) :
    readString? strict done (text.toList ++ rest) = readString? strict (letter :: done) rest := by
  simp only [namedEscapes, List.mem_cons, Prod.mk.injEq, List.not_mem_nil, or_false] at h
  rcases h with h | h | h | h | h | h | h <;>
    · obtain ⟨rfl, rfl⟩ := h
      rfl

theorem readString?_control (h : letter.toNat < 0x20) :
    readString? strict done ('\\' :: 'u' :: '0' :: '0' :: hexDigit (letter.toNat / 16) ::
      hexDigit (letter.toNat % 16) :: rest) = readString? strict (letter :: done) rest := by
  have hn : ∀ code < 0x20, naturalOf? 16 ['0', '0', hexDigit (code / 16), hexDigit (code % 16)] =
      some code := by decide
  have hh : isHighSurrogate letter.toNat = false := by
    simp only [isHighSurrogate, Bool.and_eq_false_iff, decide_eq_false_iff_not]
    omega
  have hl : isLowSurrogate letter.toNat = false := by
    simp only [isLowSurrogate, Bool.and_eq_false_iff, decide_eq_false_iff_not]
    omega
  rw [readString?, hn _ h]
  simp [hh, hl]

theorem readString?_plain (hq : letter ≠ '"') (hs : letter ≠ '\\') (hc : 0x20 ≤ letter.toNat) :
    readString? strict done (letter :: rest) = readString? strict (letter :: done) rest := by
  rw [readString?]
  · rw [if_neg (Nat.not_lt.mpr hc)]
  · exact hq
  · intro _ _ _ _ _ h _
    exact hs h
  · intro _ _ h _
    exact hs h

/-- An escaped character is read as that character. -/
theorem readString?_escaped (letter : Char) :
    readString? strict done ((escaped letter).toList ++ rest) =
      readString? strict (letter :: done) rest := by
  rw [escaped]
  cases hl : namedEscapes.lookup letter with
  | some text => exact readString?_named strict done rest (mem_of_lookup_eq_some hl)
  | none =>
      dsimp only
      split
      · rename_i hc
        simp only [String.toList_append, String.toList_ofList]
        exact readString?_control strict done rest hc
      · rename_i hc
        have hq : letter ≠ '"' := by
          rintro rfl
          cases hl
        have hs : letter ≠ '\\' := by
          rintro rfl
          cases hl
        rw [String.toList_singleton]
        exact readString?_plain strict done rest hq hs (Nat.not_lt.mp hc)

end

theorem readString?_flatMap_escaped (strict : Bool) (done letters rest : List Char) :
    readString? strict done (letters.flatMap (fun letter => (escaped letter).toList) ++
      '"' :: rest) = some (String.ofList (done.reverse ++ letters), rest) := by
  induction letters generalizing done with
  | nil => rw [List.append_nil]; rfl
  | cons letter letters ih =>
      rw [List.flatMap_cons, List.append_assoc, readString?_escaped, ih, List.reverse_cons,
        List.append_assoc]
      rfl

theorem toList_quoted_append (text : String) (rest : List Char) :
    (quoted text).toList ++ rest =
      '"' :: (text.toList.flatMap (fun letter => (escaped letter).toList) ++ '"' :: rest) := by
  simp [quoted, String.toList_join, List.flatMap_map]

theorem readString?_quoted (strict : Bool) (text : String) (rest : List Char) :
    readString? strict [] (text.toList.flatMap (fun letter => (escaped letter).toList) ++
      '"' :: rest) = some (text, rest) := by
  rw [readString?_flatMap_escaped, List.reverse_nil, List.nil_append, String.ofList_toList]

/-! ## Counts -/

/-- Nothing that may continue a number. -/
def EndsValue (rest : List Char) : Prop := ∀ letter ∈ rest.head?, letter = ',' ∨ letter = '\n'

theorem head?_toDigits_ne_zero {n : Nat} (h : 0 < n) : (Nat.toDigits 10 n).head? ≠ some '0' := by
  induction n using Nat.strongRecOn with
  | ind n ih =>
      by_cases hn : n < 10
      · rw [Nat.toDigits_of_lt_base hn]
        have hd : ∀ n < 10, 0 < n → some n.digitChar ≠ some '0' := by decide
        exact hd n hn h
      · rw [Nat.toDigits_of_base_le (by decide) (Nat.not_lt.mp hn),
          List.head?_append_of_ne_nil _ Nat.toDigits_ne_nil]
        exact ih (n / 10) (by omega) (by omega)

/-- The digits of a number start with a zero only if there is no other digit. -/
theorem toDigits_ne_zero_cons (n : Nat) (digit : Char) (digits : List Char) :
    Nat.toDigits 10 n ≠ '0' :: digit :: digits := by
  intro h
  rcases Nat.eq_zero_or_pos n with rfl | hn
  · cases h
  · exact head?_toDigits_ne_zero hn (by rw [h]; rfl)

theorem isDecimalDigit_of_mem_toDigits {n : Nat} {letter : Char} (h : letter ∈ Nat.toDigits 10 n) :
    isDecimalDigit letter := by
  have hd := Nat.isDigit_of_mem_toDigits (by decide) (by decide) h
  exact decide_eq_true (Char.isDigit_iff_toNat.mp hd)

theorem exists_toDigits_eq_cons (n : Nat) :
    ∃ digit digits, Nat.toDigits 10 n = digit :: digits ∧ isDecimalDigit digit := by
  cases h : Nat.toDigits 10 n with
  | nil => exact absurd h Nat.toDigits_ne_nil
  | cons digit digits =>
      have hm : digit ∈ Nat.toDigits 10 n := by
        rw [h]
        exact List.mem_cons_self
      exact ⟨digit, digits, rfl, isDecimalDigit_of_mem_toDigits hm⟩

theorem filterMap_digitValue?_toDigits (n : Nat) :
    (Nat.toDigits 10 n).filterMap digitValue? =
      (Nat.toDigits 10 n).map fun digit => digit.toNat - '0'.toNat :=
  List.filterMap_eq_map_iff_forall_eq_some.mpr fun _ hd =>
    if_pos (of_decide_eq_true (isDecimalDigit_of_mem_toDigits hd))

section

variable {rest : List Char} (h : EndsValue rest)
include h

theorem leadingDigits_toDigits_append (n : Nat) :
    leadingDigits (Nat.toDigits 10 n ++ rest) = (Nat.toDigits 10 n, rest) := by
  refine leadingDigits_eq_iff.mpr ⟨rfl, fun _ => isDecimalDigit_of_mem_toDigits, ?_⟩
  intro letter hl
  rcases h letter hl with rfl | rfl <;> decide

theorem readFraction?_eq_none : readFraction? rest = some (none, rest) := by
  cases rest with
  | nil => rfl
  | cons letter rest => rcases h letter rfl with rfl | rfl <;> rfl

theorem readExponent?_eq_none : readExponent? rest = some (none, rest) := by
  cases rest with
  | nil => rfl
  | cons letter rest => rcases h letter rfl with rfl | rfl <;> rfl

theorem readLiteral?_toDigits_append (n : Nat) :
    readLiteral? (Nat.toDigits 10 n ++ rest) =
      some (⟨false, (Nat.toDigits 10 n).map fun digit => digit.toNat - '0'.toNat, none, none⟩,
        rest) := by
  have hl := leadingDigits_toDigits_append h n
  have hz := toDigits_ne_zero_cons n
  have hv := filterMap_digitValue?_toDigits n
  obtain ⟨digit, digits, hd, hm⟩ := exists_toDigits_eq_cons n
  rw [hd] at hl hv hz ⊢
  have hs : digit ≠ '-' := by
    rintro rfl
    cases hm
  unfold readLiteral?
  split
  rename_i negative text ht
  have hp : (negative, text) = (false, digit :: digits ++ rest) := by
    rw [← ht]
    split
    · rename_i he
      exact absurd (List.cons.inj he).1 hs
    · rfl
  obtain ⟨rfl, rfl⟩ := Prod.mk.inj hp
  dsimp only
  rw [hl]
  split
  · rename_i he
    cases he
  · rename_i he
    exact absurd (Prod.mk.inj he).1 (hz _ _)
  · simp only [Option.bind_eq_bind, Option.bind_some, readFraction?_eq_none h,
      readExponent?_eq_none h, Option.map_none, Option.pure_def, hv]

end

end Json

namespace Number

theorem le_foldl_digits (start : Nat) (digits : List Nat) :
    start ≤ digits.foldl (fun value digit => value * 10 + digit) start := by
  induction digits generalizing start with
  | nil => exact Nat.le_refl _
  | cons digit digits ih =>
      have hs : start ≤ start * 10 + digit := by omega
      exact hs.trans (ih _)

/-- Digits whose value fits a word are all taken. -/
theorem absorb_of_lt {start : Nat} {digits : List Nat}
    (h : digits.foldl (fun value digit => value * 10 + digit) start < wordLimit) :
    absorb start digits = (digits.foldl (fun value digit => value * 10 + digit) start, []) := by
  induction digits generalizing start with
  | nil => rfl
  | cons digit digits ih =>
      have hd : start * 10 + digit < wordLimit := Nat.lt_of_le_of_lt (le_foldl_digits _ _) h
      rw [absorb, if_pos hd, ih h, List.foldl_cons]

theorem foldl_toDigits (n : Nat) :
    ((Nat.toDigits 10 n).map fun digit => digit.toNat - '0'.toNat).foldl
      (fun value digit => value * 10 + digit) 0 = n := by
  simpa only [Nat.ofDigitChars, Nat.mul_comm 10, List.foldl_map] using
    Nat.ofDigitChars_ten_toDigits (n := n)

theorem ofLiteral?_toDigits {n : Nat} (h : n < wordLimit) :
    ofLiteral? ⟨false, (Nat.toDigits 10 n).map fun digit => digit.toNat - '0'.toNat, none, none⟩ =
      some (.int n) := by
  have ha := absorb_of_lt ((foldl_toDigits n).trans_lt h)
  rw [foldl_toDigits] at ha
  simp only [ofLiteral?, ha, Bool.false_eq_true, if_false]

end Number

end ApiLint
