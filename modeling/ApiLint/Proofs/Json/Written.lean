import ApiLint.Proofs.Json.Leaves
import ApiLint.Proofs.Json.Nesting

/-! The indented form of a value, read back. It holds for values whose numbers are counts: other
numbers may be written as decimals, which are read by a rougher rule than they are written. -/

namespace ApiLint.Json

/-! ## Values of counts -/

/-- Numbers are counts that fit a word, and no key of an object comes twice. -/
inductive Counted : Json → Prop where
  | null : Counted .null
  | bool (value) : Counted (.bool value)
  | count {n : Nat} : n < Number.wordLimit → Counted (.number (.int n))
  | string (text) : Counted (.string text)
  | array {elements} : (∀ element ∈ elements, Counted element) → Counted (.array elements)
  | object {entries} : (entries.map Prod.fst).Nodup → (∀ entry ∈ entries, Counted entry.2) →
      Counted (.object entries)

/-- Behind a value that is read from its indented form stands what stood behind that form. -/
def Reads (level : Nat) (value : Json) : Prop :=
  ∀ fuel room rest, value.nesting ≤ room → EndsValue rest →
    ((value.prettyAt level).toList ++ rest).length ≤ fuel →
      readValue? fuel ⟨some room, true⟩ ((value.prettyAt level).toList ++ rest) = some (value, rest)

/-! ### Lines -/

/-- The line feed and the blanks in front of an item. -/
def indent (level : Nat) : List Char := '\n' :: List.replicate (2 * level) ' '

theorem isBlank_of_mem_indent {n : Nat} {letter : Char} (h : letter ∈ indent n) :
    isBlank letter := by
  rcases List.mem_cons.mp h with rfl | h
  · rfl
  · obtain rfl := List.eq_of_mem_replicate h
    rfl

theorem skipBlanks_append {blanks : List Char} (h : ∀ letter ∈ blanks, isBlank letter)
    (text : List Char) : skipBlanks (blanks ++ text) = skipBlanks text :=
  List.dropWhile_append_of_pos h

theorem readValue?_append {blanks : List Char} (h : ∀ letter ∈ blanks, isBlank letter)
    (fuel : Nat) (rules : Rules) (text : List Char) :
    readValue? fuel rules (blanks ++ text) = readValue? fuel rules text := by
  cases fuel with
  | zero => rfl
  | succ fuel => rw [readValue?, readValue?, skipBlanks_append h]

/-- What stands behind an item of a collection: further items on lines of their own, and the end. -/
def furtherLines (level : Nat) (ending : List Char) : List String → List Char
  | [] => indent level ++ ending
  | item :: items =>
    ',' :: (indent (level + 1) ++ (item.toList ++ furtherLines level ending items))

theorem endsValue_furtherLines (level : Nat) (ending : List Char) (items : List String) :
    EndsValue (furtherLines level ending items) := by
  intro letter hl
  cases items with
  | nil => exact .inr (Option.some.inj hl).symm
  | cons item items => exact .inl (Option.some.inj hl).symm

theorem skipBlanks_furtherLines_nil (level : Nat) (ending : List Char) :
    skipBlanks (furtherLines level ending []) = skipBlanks ending :=
  skipBlanks_append (fun _ => isBlank_of_mem_indent) ending

section

variable {opening closing : String} {first last : Char} (ho : opening.toList = [first])
  (hc : closing.toList = [last]) (level : Nat)
include ho hc

theorem toList_block_nil_append (rest : List Char) :
    (block opening closing level []).toList ++ rest = first :: last :: rest := by
  rw [block, String.toList_append, ho, hc]
  rfl

theorem toList_block_cons_append (item : String) (items : List String) (rest : List Char) :
    (block opening closing level (item :: items)).toList ++ rest =
      first :: (indent (level + 1) ++
        (item.toList ++ furtherLines level (last :: rest) items)) := by
  have hf : items.flatMap (fun item => ',' :: (indent (level + 1) ++ item.toList)) ++
      (indent level ++ last :: rest) = furtherLines level (last :: rest) items := by
    induction items with
    | nil => rfl
    | cons item items ih =>
        rw [List.flatMap_cons, List.append_assoc, ih, furtherLines, List.cons_append,
          List.append_assoc]
  rw [← hf, block, List.map_cons, intercalate_cons]
  · simp [String.toList_join, List.flatMap_map, indent, ho, hc]
  · exact List.cons_ne_nil _ _

end

theorem prettyElements_eq_map (level : Nat) (elements : List Json) :
    prettyElements level elements = elements.map (prettyAt level) := by
  induction elements with
  | nil => rfl
  | cons element rest ih => rw [prettyElements, ih, List.map_cons]

/-- An entry as it is written on a line. -/
def entryLine (level : Nat) (entry : String × Json) : String :=
  quoted entry.1 ++ ": " ++ entry.2.prettyAt level

theorem prettyEntries_eq_map (level : Nat) (entries : Entries Json) :
    prettyEntries level entries = entries.map (entryLine level) := by
  induction entries with
  | nil => rfl
  | cons entry rest ih =>
      rw [prettyEntries, ih, List.map_cons]
      rfl

theorem toList_array_nil_append (level : Nat) (rest : List Char) :
    ((Json.array []).prettyAt level).toList ++ rest = '[' :: ']' :: rest :=
  toList_block_nil_append (by simp : "[".toList = ['[']) (by simp : "]".toList = [']']) level rest

theorem toList_array_cons_append (level : Nat) (first : Json) (elements : List Json)
    (rest : List Char) :
    ((Json.array (first :: elements)).prettyAt level).toList ++ rest =
      '[' :: (indent (level + 1) ++ ((first.prettyAt (level + 1)).toList ++
        furtherLines level (']' :: rest) (elements.map (prettyAt (level + 1))))) := by
  rw [prettyAt, prettyElements_eq_map, List.map_cons]
  exact toList_block_cons_append (by simp : "[".toList = ['[']) (by simp : "]".toList = [']'])
    level _ _ rest

theorem toList_object_nil_append (level : Nat) (rest : List Char) :
    ((Json.object []).prettyAt level).toList ++ rest = '\x7b' :: '\x7d' :: rest :=
  toList_block_nil_append (by simp : "\x7b".toList = ['\x7b']) (by simp : "\x7d".toList = ['\x7d'])
    level rest

theorem toList_object_cons_append (level : Nat) (first : String × Json) (entries : Entries Json)
    (rest : List Char) :
    ((Json.object (first :: entries)).prettyAt level).toList ++ rest =
      '\x7b' :: (indent (level + 1) ++ ((entryLine (level + 1) first).toList ++
        furtherLines level ('\x7d' :: rest) (entries.map (entryLine (level + 1))))) := by
  rw [prettyAt, prettyEntries_eq_map, List.map_cons]
  exact toList_block_cons_append (by simp : "\x7b".toList = ['\x7b'])
    (by simp : "\x7d".toList = ['\x7d']) level _ _ rest

/-- Where nothing stands behind a text. -/
theorem toList_eq {text : String} {letters : List Char} (h : text.toList ++ [] = letters) :
    text.toList = letters := by
  rw [← h, List.append_nil]

theorem exists_toList_entryLine (level : Nat) (entry : String × Json) :
    ∃ rest, (entryLine level entry).toList = '"' :: rest := by
  rw [entryLine, String.toList_append, String.toList_append,
    toList_eq (toList_quoted_append entry.1 [])]
  exact ⟨_, rfl⟩

theorem toList_count (n level : Nat) :
    ((Json.number (.int n)).prettyAt level).toList = Nat.toDigits 10 n := by
  have ht : (Json.number (.int n)).prettyAt level = toString n := rfl
  rw [ht, Nat.toString_eq_repr, Nat.toList_repr]

/-- A value starts where the blanks in front of it end, and it is no closing bracket. -/
theorem exists_toList_prettyAt {value : Json} (h : Counted value) (level : Nat) :
    ∃ letter rest, (value.prettyAt level).toList = letter :: rest ∧ isBlank letter = false ∧
      letter ≠ ']' := by
  cases h with
  | null => exact ⟨'n', ['u', 'l', 'l'], by simp [prettyAt, leafText], by decide, by decide⟩
  | bool value =>
      cases value with
      | true =>
          exact ⟨'t', ['r', 'u', 'e'], by simp [prettyAt, leafText], by decide, by decide⟩
      | false =>
          exact ⟨'f', ['a', 'l', 's', 'e'], by simp [prettyAt, leafText], by decide, by decide⟩
  | @count n _ =>
      obtain ⟨digit, digits, hd, hm⟩ := exists_toDigits_eq_cons n
      refine ⟨digit, digits, (toList_count n level).trans hd, ?_, ?_⟩
      · simp only [isBlank, Bool.or_eq_false_iff, beq_eq_false_iff_ne]
        refine ⟨⟨⟨?_, ?_⟩, ?_⟩, ?_⟩ <;>
          · rintro rfl
            cases hm
      · rintro rfl
        cases hm
  | string text =>
      exact ⟨'"', _, toList_eq (toList_quoted_append text []), by decide, by decide⟩
  | @array elements _ =>
      cases elements with
      | nil => exact ⟨'[', _, toList_eq (toList_array_nil_append level []), by decide, by decide⟩
      | cons first elements =>
          exact ⟨'[', _, toList_eq (toList_array_cons_append level first elements []), by decide,
            by decide⟩
  | @object entries _ _ =>
      cases entries with
      | nil =>
          exact ⟨'\x7b', _, toList_eq (toList_object_nil_append level []), by decide, by decide⟩
      | cons first entries =>
          exact ⟨'\x7b', _, toList_eq (toList_object_cons_append level first entries []), by decide,
            by decide⟩

/-- An element on a line of its own is read, and then what stands behind it. -/
theorem readElements?_line {level room : Nat} {element : Json} (hr : Reads (level + 1) element)
    (hn : element.nesting ≤ room) {blanks : List Char} (hb : ∀ letter ∈ blanks, isBlank letter)
    (done : List Json) {fuel : Nat} {ending : List Char} {items : List String}
    (hf : ((element.prettyAt (level + 1)).toList ++ furtherLines level ending items).length ≤
      fuel) :
    readElements? (fuel + 1) ⟨some room, true⟩ done (blanks ++
        ((element.prettyAt (level + 1)).toList ++ furtherLines level ending items)) =
      match skipBlanks (furtherLines level ending items) with
      | ',' :: rest => readElements? fuel ⟨some room, true⟩ (element :: done) rest
      | ']' :: rest => some (.array (element :: done).reverse, rest)
      | _ => none := by
  rw [readElements?, readValue?_append hb,
    hr fuel room _ hn (endsValue_furtherLines level ending items) hf]
  rfl

/-- Elements on lines of their own are read one after the other. -/
theorem readElements?_lines {level room : Nat} {first : Json} {elements : List Json}
    (hr : ∀ element ∈ first :: elements, Reads (level + 1) element)
    (hn : ∀ element ∈ first :: elements, element.nesting ≤ room) {blanks : List Char}
    (hb : ∀ letter ∈ blanks, isBlank letter) (done : List Json) (fuel : Nat) (rest : List Char)
    (hf : ((first.prettyAt (level + 1)).toList ++ furtherLines level (']' :: rest)
      (elements.map (prettyAt (level + 1)))).length < fuel) :
    readElements? fuel ⟨some room, true⟩ done (blanks ++ ((first.prettyAt (level + 1)).toList ++
      furtherLines level (']' :: rest) (elements.map (prettyAt (level + 1))))) =
        some (.array (done.reverse ++ first :: elements), rest) := by
  induction elements generalizing first blanks done fuel with
  | nil =>
      obtain ⟨fuel, rfl⟩ := Nat.exists_eq_add_one_of_ne_zero (Nat.ne_zero_of_lt hf)
      rw [readElements?_line (hr first List.mem_cons_self) (hn first List.mem_cons_self) hb done
        (Nat.le_of_lt_succ hf), List.map_nil, skipBlanks_furtherLines_nil]
      simp [skipBlanks, isBlank]
  | cons next elements ih =>
      obtain ⟨fuel, rfl⟩ := Nat.exists_eq_add_one_of_ne_zero (Nat.ne_zero_of_lt hf)
      rw [readElements?_line (hr first List.mem_cons_self) (hn first List.mem_cons_self) hb done
        (Nat.le_of_lt_succ hf)]
      have hl := ih (List.forall_mem_cons.mp hr).2 (List.forall_mem_cons.mp hn).2
        (fun _ => isBlank_of_mem_indent (n := level + 1)) (first :: done) fuel (by
          simp only [List.map_cons, furtherLines, List.length_append, List.length_cons] at hf ⊢
          omega)
      rw [List.reverse_cons, List.append_assoc] at hl
      exact hl

theorem readKey?_quote (strict : Bool) (text : List Char) :
    readKey? strict ('"' :: text) =
      (readString? strict [] text).bind fun (key, rest) =>
        match skipBlanks rest with
        | ':' :: rest => some (key, rest)
        | _ => none := rfl

theorem readKey?_line {blanks : List Char} (hb : ∀ letter ∈ blanks, isBlank letter) (strict : Bool)
    (key : String) (rest : List Char) :
    readKey? strict (blanks ++ ((quoted key).toList ++ ':' :: rest)) = some (key, rest) := by
  have hq : readKey? strict (blanks ++ ((quoted key).toList ++ ':' :: rest)) =
      readKey? strict ((quoted key).toList ++ ':' :: rest) := by
    rw [readKey?, readKey?, skipBlanks_append hb]
  rw [hq, toList_quoted_append, readKey?_quote, readString?_quoted]
  rfl

/-- An entry on a line of its own is read, and then what stands behind it. -/
theorem readMembers?_line {level room : Nat} {entry : String × Json}
    (hr : Reads (level + 1) entry.2) (hn : entry.2.nesting ≤ room) {blanks : List Char}
    (hb : ∀ letter ∈ blanks, isBlank letter) (done : Entries Json) {fuel : Nat}
    {ending : List Char} {items : List String}
    (hf : ((entryLine (level + 1) entry).toList ++ furtherLines level ending items).length ≤
      fuel) :
    readMembers? (fuel + 1) ⟨some room, true⟩ done (blanks ++
        ((entryLine (level + 1) entry).toList ++ furtherLines level ending items)) =
      match skipBlanks (furtherLines level ending items) with
      | ',' :: rest => readMembers? fuel ⟨some room, true⟩ (entry :: done) rest
      | '\x7d' :: rest => some (.object (Entries.ofPairs (entry :: done).reverse), rest)
      | _ => none := by
  have he : (entryLine (level + 1) entry).toList ++ furtherLines level ending items =
      (quoted entry.1).toList ++ ':' :: ([' '] ++
        ((entry.2.prettyAt (level + 1)).toList ++ furtherLines level ending items)) := by
    simp [entryLine]
  have hblank : ∀ letter ∈ [' '], isBlank letter := List.forall_mem_singleton.mpr rfl
  rw [he] at hf ⊢
  simp only [List.length_append, List.length_cons] at hf
  rw [readMembers?, readKey?_line hb, Option.bind_eq_bind, Option.bind_some]
  dsimp only
  rw [readValue?_append hblank, hr fuel room _ hn (endsValue_furtherLines level ending items)
    (by rw [List.length_append]; omega)]
  rfl

/-- Entries on lines of their own are read one after the other. -/
theorem readMembers?_lines {level room : Nat} {first : String × Json} {entries : Entries Json}
    (hr : ∀ entry ∈ first :: entries, Reads (level + 1) entry.2)
    (hn : ∀ entry ∈ first :: entries, entry.2.nesting ≤ room) {blanks : List Char}
    (hb : ∀ letter ∈ blanks, isBlank letter) (done : Entries Json) (fuel : Nat) (rest : List Char)
    (hf : ((entryLine (level + 1) first).toList ++ furtherLines level ('\x7d' :: rest)
      (entries.map (entryLine (level + 1)))).length < fuel) :
    readMembers? fuel ⟨some room, true⟩ done (blanks ++ ((entryLine (level + 1) first).toList ++
      furtherLines level ('\x7d' :: rest) (entries.map (entryLine (level + 1))))) =
        some (.object (Entries.ofPairs (done.reverse ++ first :: entries)), rest) := by
  induction entries generalizing first blanks done fuel with
  | nil =>
      obtain ⟨fuel, rfl⟩ := Nat.exists_eq_add_one_of_ne_zero (Nat.ne_zero_of_lt hf)
      rw [readMembers?_line (hr first List.mem_cons_self) (hn first List.mem_cons_self) hb done
        (Nat.le_of_lt_succ hf), List.map_nil, skipBlanks_furtherLines_nil]
      simp [skipBlanks, isBlank]
  | cons next entries ih =>
      obtain ⟨fuel, rfl⟩ := Nat.exists_eq_add_one_of_ne_zero (Nat.ne_zero_of_lt hf)
      rw [readMembers?_line (hr first List.mem_cons_self) (hn first List.mem_cons_self) hb done
        (Nat.le_of_lt_succ hf)]
      have hl := ih (List.forall_mem_cons.mp hr).2 (List.forall_mem_cons.mp hn).2
        (fun _ => isBlank_of_mem_indent (n := level + 1)) (first :: done) fuel (by
          simp only [List.map_cons, furtherLines, List.length_append, List.length_cons] at hf ⊢
          omega)
      rw [List.reverse_cons, List.append_assoc] at hl
      exact hl

/-! ### Values -/

theorem reads_null (level : Nat) : Reads level .null := by
  intro fuel room rest _ _ hf
  have ht : (Json.null.prettyAt level).toList = ['n', 'u', 'l', 'l'] := by simp [prettyAt, leafText]
  rw [ht] at hf ⊢
  cases fuel with
  | zero => cases hf
  | succ fuel => rfl

theorem reads_bool (level : Nat) (value : Bool) : Reads level (.bool value) := by
  intro fuel room rest _ _ hf
  have ht : ((Json.bool value).prettyAt level).toList =
      if value then ['t', 'r', 'u', 'e'] else ['f', 'a', 'l', 's', 'e'] := by
    cases value <;> simp [prettyAt, leafText]
  rw [ht] at hf ⊢
  cases fuel with
  | zero => cases value <;> cases hf
  | succ fuel => cases value <;> rfl

theorem readValue?_quote (fuel room : Nat) (text : List Char) :
    readValue? (fuel + 1) ⟨some room, true⟩ ('"' :: text) =
      (readString? true [] text).bind fun (value, rest) => some (.string value, rest) := rfl

theorem reads_string (level : Nat) (text : String) : Reads level (.string text) := by
  intro fuel room rest _ _ hf
  have ht : ((Json.string text).prettyAt level).toList = (quoted text).toList := rfl
  rw [ht, toList_quoted_append] at hf ⊢
  cases fuel with
  | zero => cases hf
  | succ fuel =>
      rw [readValue?_quote, readString?_quoted]
      rfl

theorem readValue?_digit {digit : Char} (h : isDecimalDigit digit) (fuel room : Nat)
    (text : List Char) :
    readValue? (fuel + 1) ⟨some room, true⟩ (digit :: text) =
      (readLiteral? (digit :: text)).bind fun (literal, rest) =>
        match Number.ofLiteral? literal with
        | some value => some (.number value, rest)
        | none => none := by
  have hm : digit ∈ ['0', '1', '2', '3', '4', '5', '6', '7', '8', '9'] := isDecimalDigit_iff.mp h
  simp only [List.mem_cons, List.not_mem_nil, or_false] at hm
  rcases hm with rfl | rfl | rfl | rfl | rfl | rfl | rfl | rfl | rfl | rfl <;> rfl

theorem reads_count (level : Nat) {n : Nat} (h : n < Number.wordLimit) :
    Reads level (.number (.int n)) := by
  intro fuel room rest _ hr hf
  rw [toList_count] at hf ⊢
  cases fuel with
  | zero =>
      have hl := Nat.length_toDigits_pos (b := 10) (n := n)
      rw [List.length_append] at hf
      omega
  | succ fuel =>
      obtain ⟨digit, digits, hd, hm⟩ := exists_toDigits_eq_cons n
      rw [hd, List.cons_append, readValue?_digit hm, ← List.cons_append, ← hd,
        readLiteral?_toDigits_append hr, Option.bind_some]
      dsimp only
      rw [Number.ofLiteral?_toDigits h]

theorem readValue?_bracket (fuel room : Nat) (text : List Char) :
    readValue? (fuel + 1) ⟨some (room + 1), true⟩ ('[' :: text) =
      match skipBlanks text with
      | ']' :: rest => some (.array [], rest)
      | rest => readElements? fuel ⟨some room, true⟩ [] rest := rfl

theorem readValue?_brace (fuel room : Nat) (text : List Char) :
    readValue? (fuel + 1) ⟨some (room + 1), true⟩ ('\x7b' :: text) =
      match skipBlanks text with
      | '\x7d' :: rest => some (.object [], rest)
      | rest => readMembers? fuel ⟨some room, true⟩ [] rest := rfl

theorem readValue?_eq_readElements? {text rest : List Char} {letter : Char}
    (h : skipBlanks text = letter :: rest) (hl : letter ≠ ']') (fuel room : Nat) :
    readValue? (fuel + 1) ⟨some (room + 1), true⟩ ('[' :: text) =
      readElements? fuel ⟨some room, true⟩ [] (letter :: rest) := by
  rw [readValue?_bracket, h]
  split
  · rename_i he
    exact absurd (List.cons.inj he).1 hl
  · rfl

theorem readValue?_eq_readMembers? {text rest : List Char} (h : skipBlanks text = '"' :: rest)
    (fuel room : Nat) :
    readValue? (fuel + 1) ⟨some (room + 1), true⟩ ('\x7b' :: text) =
      readMembers? fuel ⟨some room, true⟩ [] ('"' :: rest) := by
  rw [readValue?_brace, h]
  rfl

theorem reads_array {level : Nat} {elements : List Json}
    (hr : ∀ element ∈ elements, Reads (level + 1) element)
    (hc : ∀ element ∈ elements, Counted element) : Reads level (.array elements) := by
  intro fuel room rest hn _ hf
  cases room with
  | zero => cases hn
  | succ room =>
      rw [nesting_array_le_iff] at hn
      cases elements with
      | nil =>
          rw [toList_array_nil_append] at hf ⊢
          cases fuel with
          | zero => cases hf
          | succ fuel => rfl
      | cons first elements =>
          rw [toList_array_cons_append] at hf ⊢
          cases fuel with
          | zero => cases hf
          | succ fuel =>
              obtain ⟨letter, text, hl, hb, hne⟩ :=
                exists_toList_prettyAt (hc first List.mem_cons_self) (level + 1)
              have hlines := readElements?_lines hr hn (List.forall_mem_nil _) [] fuel rest (by
                simp only [indent, List.length_append, List.length_cons] at hf ⊢
                omega)
              rw [List.nil_append, hl] at hlines
              refine (readValue?_eq_readElements? ?_ hne fuel room).trans hlines
              rw [skipBlanks_append fun _ => isBlank_of_mem_indent, hl]
              exact List.dropWhile_cons_of_neg (by simp [hb])

theorem reads_object {level : Nat} {entries : Entries Json}
    (hk : (entries.map Prod.fst).Nodup) (hr : ∀ entry ∈ entries, Reads (level + 1) entry.2) :
    Reads level (.object entries) := by
  intro fuel room rest hn _ hf
  cases room with
  | zero => cases hn
  | succ room =>
      rw [nesting_object_le_iff] at hn
      cases entries with
      | nil =>
          rw [toList_object_nil_append] at hf ⊢
          cases fuel with
          | zero => cases hf
          | succ fuel => rfl
      | cons first entries =>
          rw [toList_object_cons_append] at hf ⊢
          cases fuel with
          | zero => cases hf
          | succ fuel =>
              obtain ⟨text, hl⟩ := exists_toList_entryLine (level + 1) first
              have hlines := readMembers?_lines hr hn (List.forall_mem_nil _) [] fuel rest (by
                simp only [indent, List.length_append, List.length_cons] at hf ⊢
                omega)
              rw [List.reverse_nil, List.nil_append, List.nil_append, hl,
                Entries.ofPairs_of_nodup hk] at hlines
              refine (readValue?_eq_readMembers? ?_ fuel room).trans hlines
              rw [skipBlanks_append fun _ => isBlank_of_mem_indent, hl]
              rfl

theorem reads_of_counted {value : Json} (h : Counted value) (level : Nat) : Reads level value := by
  induction h generalizing level with
  | null => exact reads_null level
  | bool value => exact reads_bool level value
  | count hn => exact reads_count level hn
  | string text => exact reads_string level text
  | array hc ih => exact reads_array (fun element he => ih element he (level + 1)) hc
  | object hk _ ih => exact reads_object hk fun entry he => ih entry he (level + 1)

/-- A value of counts is read from its indented form, up to the nesting that texts may have. -/
theorem parse?_pretty {value : Json} (h : Counted value) (hn : value.nesting ≤ greatestNesting) :
    parse? (value.pretty ++ "\n") = some value := by
  have ht : (value.pretty ++ "\n").toList = (value.prettyAt 0).toList ++ ['\n'] :=
    String.toList_append
  have hr : read? ⟨some greatestNesting, true⟩ ((value.prettyAt 0).toList ++ ['\n']) =
      some (value, ['\n']) :=
    reads_of_counted h 0 _ greatestNesting ['\n'] hn (by simp [EndsValue]) (by omega)
  rw [parse?, ht, hr]
  rfl

end ApiLint.Json
