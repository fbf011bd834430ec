import ApiLint.Proofs.FirstOccurrences
import ApiLint.Proofs.Json
import ApiLint.Proofs.Json.Tree
import ApiLint.Proofs.Yaml.Order
import ApiLint.Proofs.Yaml.Precedence
import Mathlib.Logic.Relation

/-! Mappings as objects. A text that several keys share gives one member: the first of their entries
gives its place, the last one its value, and the others are lost. Tags leave no trace, neither those
of values nor those of keys. -/

namespace ApiLint.Yaml.Value

/-! ## The object of a mapping -/

theorem toJson_mapping (entries : List (Value × Value)) :
    toJson (.mapping entries) = .object (Entries.ofPairs (pairsToJson entries)) := by
  rw [toJson]

theorem keys_ofPairs_pairsToJson (entries : List (Value × Value)) :
    (Entries.ofPairs (pairsToJson entries)).map Prod.fst = (texts entries).eraseDups := by
  rw [Entries.keys_ofPairs, pairsToJson_eq_map, List.map_map]
  rfl

theorem length_ofPairs_pairsToJson_eq_iff {entries : List (Value × Value)} :
    (Entries.ofPairs (pairsToJson entries)).length = entries.length ↔ (texts entries).Nodup := by
  have hl := congrArg List.length (keys_ofPairs_pairsToJson entries)
  rw [List.length_map] at hl
  rw [hl, ← length_eraseDups_eq_iff, texts, List.length_map]

/-- Whatever the value of an entry between others, the mapping becomes the same object. -/
def Lost (before : List (Value × Value)) (key : Value) (after : List (Value × Value)) : Prop :=
  ∀ value other, toJson (.mapping (before ++ (key, value) :: after)) =
    toJson (.mapping (before ++ (key, other) :: after))

theorem lastUnder_cons (text : String) (entry : Value × Value) (rest : List (Value × Value)) :
    lastUnder text (entry :: rest) =
      (lastUnder text rest).or (if entry.1.keyText = text then some entry else none) := by
  rw [← List.singleton_append, lastUnder_append]
  by_cases h : entry.1.keyText = text
  · simp [lastUnder, h]
  · simp [lastUnder, h]

theorem exists_lastUnder {text : String} {entries : List (Value × Value)}
    (h : text ∈ texts entries) : ∃ entry, lastUnder text entries = some entry := by
  obtain ⟨entry, he, ht⟩ := List.mem_map.mp h
  cases hl : lastUnder text entries with
  | none => exact absurd ht (lastUnder_eq_none_iff.mp hl entry he)
  | some last => exact ⟨last, rfl⟩

theorem lastUnder_eq_none_of_not_mem {text : String} {entries : List (Value × Value)}
    (h : text ∉ texts entries) : lastUnder text entries = none :=
  lastUnder_eq_none_iff.mpr fun _ he ht => h (List.mem_map.mpr ⟨_, he, ht⟩)

/-- An entry is lost exactly if a later one has a key with the same text. -/
theorem lost_iff {before after : List (Value × Value)} {key : Value} :
    Lost before key after ↔ key.keyText ∈ texts after := by
  constructor
  · intro h
    by_contra hn
    have hlast (value : Value) : (Entries.ofPairs (pairsToJson
        (before ++ (key, value) :: after))).lookup key.keyText = some value.toJson := by
      rw [lookup_toJson_mapping, lastUnder_append, lastUnder_cons,
        lastUnder_eq_none_of_not_mem hn]
      simp
    have ho := h (.scalar .null) (.scalar (.bool true))
    rw [toJson_mapping, toJson_mapping, Json.object.injEq] at ho
    have hv := (hlast _).symm.trans (ho ▸ hlast (.scalar (.bool true)))
    cases hv
  · intro h value other
    rw [toJson_mapping, toJson_mapping]
    refine congrArg Json.object (Entries.eq_of_lookup_eq (Entries.nodup_keys_ofPairs _) ?_ ?_)
    · rw [keys_ofPairs_pairsToJson, keys_ofPairs_pairsToJson]
      simp [texts]
    · intro text
      rw [lookup_toJson_mapping, lookup_toJson_mapping, lastUnder_append, lastUnder_append,
        lastUnder_cons, lastUnder_cons]
      by_cases ht : key.keyText = text
      · obtain ⟨last, hl⟩ := exists_lastUnder (ht ▸ h)
        simp [hl]
      · simp [ht]

/-! ## What a value shows as a plain one -/

/-- The values inside a value, those of lost entries and what stands in them left out. -/
inductive Shows : Value → Value → Prop
  | self (value) : Shows value value
  | item {items item part} : item ∈ items → Shows item part → Shows (.sequence items) part
  | entry {text entries entry part} : lastUnder text entries = some entry →
      Shows entry.2 part → Shows (.mapping entries) part
  | tagged {name value part} : Shows value part → Shows (.tagged name value) part

theorem eq_of_contains_toJson_scalar {value : Scalar} {json : Json}
    (h : value.toJson.Contains json) : json = value.toJson := by
  refine h.eq_of_leaf ?_ ?_
  all_goals
    cases value with
    | int value =>
        rw [Scalar.toJson, intToJson]
        split_ifs
        · rfl
        · rfl
        · split <;> rfl
    | float value => cases value <;> rfl
    | _ => rfl

/-- The values inside a plain form are the plain forms of what is shown. -/
theorem contains_toJson_iff {tree : Value} {json : Json} :
    tree.toJson.Contains json ↔ ∃ part, tree.Shows part ∧ part.toJson = json := by
  constructor
  · intro h
    induction tree using Value.induction with
    | scalar value => exact ⟨_, .self _, (eq_of_contains_toJson_scalar h).symm⟩
    | sequence items ih =>
        rw [toJson, itemsToJson_eq_map] at h
        cases h with
        | self => exact ⟨_, .self _, by rw [toJson, itemsToJson_eq_map]⟩
        | element he hc =>
            obtain ⟨item, hi, rfl⟩ := List.mem_map.mp he
            obtain ⟨part, hs, hp⟩ := ih item hi hc
            exact ⟨part, .item hi hs, hp⟩
    | mapping entries ih =>
        rw [toJson_mapping] at h
        cases h with
        | self => exact ⟨_, .self _, toJson_mapping entries⟩
        | @entry _ member _ hm hc =>
            have hl := Entries.lookup_of_mem (Entries.nodup_keys_ofPairs _) hm
            rw [lookup_toJson_mapping, Option.map_eq_some_iff] at hl
            obtain ⟨entry, hl, he⟩ := hl
            obtain ⟨part, hs, hp⟩ := ih entry (mem_of_lastUnder hl).1 (he ▸ hc)
            exact ⟨part, .entry hl hs, hp⟩
    | tagged name value ih =>
        rw [toJson] at h
        obtain ⟨part, hs, hp⟩ := ih h
        exact ⟨part, .tagged hs, hp⟩
  · rintro ⟨part, h, rfl⟩
    induction h with
    | self value => exact .self _
    | item hi _ ih =>
        rw [toJson, itemsToJson_eq_map]
        exact .element (List.mem_map_of_mem hi) ih
    | @entry text entries entry part hl _ ih =>
        have ho := lookup_toJson_mapping text entries
        rw [hl, Option.map_some] at ho
        rw [toJson_mapping]
        exact .entry (mem_of_lookup_eq_some ho) ih
    | tagged _ ih =>
        rw [toJson]
        exact ih

/-! ## Tags -/

/-- One value or key, wherever it stands, is put into a tag. -/
inductive Wraps : Value → Value → Prop
  | here (name value) : Wraps value (.tagged name value)
  | item {before item other after} : Wraps item other →
      Wraps (.sequence (before ++ item :: after)) (.sequence (before ++ other :: after))
  | key {before key other value after} : Wraps key other →
      Wraps (.mapping (before ++ (key, value) :: after))
        (.mapping (before ++ (other, value) :: after))
  | value {before key value other after} : Wraps value other →
      Wraps (.mapping (before ++ (key, value) :: after))
        (.mapping (before ++ (key, other) :: after))
  | tagged {name value other} : Wraps value other →
      Wraps (.tagged name value) (.tagged name other)

theorem Wraps.toJson_eq {value other : Value} (h : Wraps value other) :
    other.toJson = value.toJson := by
  induction h with
  | here name value => rw [toJson]
  | item _ ih => simp only [toJson, itemsToJson_eq_map, List.map_append, List.map_cons, ih]
  | key _ ih =>
      simp only [toJson_mapping, pairsToJson_eq_map, List.map_append, List.map_cons, keyText, ih]
  | value _ ih =>
      simp only [toJson_mapping, pairsToJson_eq_map, List.map_append, List.map_cons, ih]
  | tagged _ ih => rw [toJson, toJson, ih]

theorem toJson_eq_of_wraps {value other : Value} (h : Relation.ReflTransGen Wraps value other) :
    other.toJson = value.toJson := by
  induction h with
  | refl => rfl
  | tail _ hs ih => rw [hs.toJson_eq, ih]

/-! ## Trees -/

/-- What an object says of the entries of a mapping. -/
structure KeyedByText (entries : List (Value × Value)) (object : Entries Json) : Prop where
  /-- The texts of the keys, each at its first occurrence. -/
  keys_eq : object.map Prod.fst = (texts entries).eraseDups
  nodup_keys : (object.map Prod.fst).Nodup
  lookup_eq : ∀ text,
    object.lookup text = (lastUnder text entries).map fun entry => entry.2.toJson
  lost_iff : ∀ before key value after, entries = before ++ (key, value) :: after →
    (Lost before key after ↔ ∃ later ∈ after, later.1.keyText = key.keyText)
  length_eq_iff : object.length = entries.length ↔ (texts entries).Nodup

theorem keyedByText (entries : List (Value × Value)) :
    KeyedByText entries (Entries.ofPairs (pairsToJson entries)) := by
  refine ⟨keys_ofPairs_pairsToJson entries, Entries.nodup_keys_ofPairs _,
    fun text => lookup_toJson_mapping text entries, ?_, length_ofPairs_pairsToJson_eq_iff⟩
  rintro before key value after -
  rw [lost_iff, texts, List.mem_map]

/-- Every mapping inside a tree becomes an object that is keyed by the texts of its keys, and that
is found in the plain form of the tree unless the mapping stands in a lost entry. Values and keys
may be put into tags anywhere without a change of the plain form. -/
theorem toJson_keyedByText (tree : Value) :
    (tree.EveryMapping fun entries => ∃ object,
      toJson (.mapping entries) = .object object ∧ KeyedByText entries object ∧
        (tree.Shows (.mapping entries) → tree.toJson.Contains (.object object))) ∧
      ∀ other, Relation.ReflTransGen Wraps tree other → other.toJson = tree.toJson := by
  refine ⟨fun entries _ => ?_, fun other h => toJson_eq_of_wraps h⟩
  refine ⟨_, toJson_mapping entries, keyedByText entries, fun hs => ?_⟩
  exact contains_toJson_iff.mpr ⟨_, hs, toJson_mapping entries⟩

/-- Responses by code, one of which is written as a number and, in a tag, as a text. -/
def codesTwice (last : Value) : List (Value × Value) :=
  [(.scalar (.int 200), .string "first"), (.string "404", .scalar .null), (last, .string "last")]

theorem toJson_keyedByText_codesTwice :
    Wraps (.mapping (codesTwice (.string "200")))
        (.mapping (codesTwice (.tagged "code" (.string "200")))) ∧
      Lost [] (.scalar (.int 200)) (codesTwice (.string "200")).tail ∧
      ∃ object, toJson (.mapping (codesTwice (.tagged "code" (.string "200")))) = .object object ∧
        object.map Prod.fst = ["200", "404"] ∧ object.lookup "200" = some (.string "last") ∧
        object.length ≠ (codesTwice (.string "200")).length := by
  have hw : Wraps (.mapping (codesTwice (.string "200")))
      (.mapping (codesTwice (.tagged "code" (.string "200")))) :=
    @Wraps.key ((codesTwice (.string "200")).take 2) _ _ _ [] (.here "code" _)
  obtain ⟨hm, ht⟩ := toJson_keyedByText (.mapping (codesTwice (.string "200")))
  obtain ⟨object, ho, hk, -⟩ := hm _ (.self _)
  have hd : texts (codesTwice (.string "200")) = ["200", "404", "200"] := by decide +kernel
  have hlost := (hk.lost_iff [] _ _ _ rfl).mpr ⟨(.string "200", .string "last"), by
    simp, by decide +kernel⟩
  refine ⟨hw, hlost, object, (ht _ (.single hw)).trans ho, ?_, ?_, ?_⟩
  · rw [hk.keys_eq, hd]
    decide
  · rw [hk.lookup_eq]
    rfl
  · rw [ne_eq, hk.length_eq_iff, hd]
    decide

end ApiLint.Yaml.Value
