import ApiLint.Proofs.Entries
import ApiLint.Proofs.Json.Tree
import ApiLint.Proofs.Yaml.Completeness
import ApiLint.Report

/-! A JSON value written as YAML. Its keys are strings and it has no tags, so that a merge has
nothing to do and no two keys come to share a text. -/

namespace ApiLint

namespace Yaml.Value

mutual

/-- The same tree with strings for keys. -/
def ofJson : Json → Value
  | .null => .scalar .null
  | .bool value => .scalar (.bool value)
  | .number (.int value) => .scalar (.int value)
  | .number (.float value) => .scalar (.float (.finite value))
  | .string text => .string text
  | .array elements => .sequence (ofElements elements)
  | .object entries => .mapping (ofEntries entries)

def ofElements : List Json → List Value
  | [] => []
  | element :: rest => ofJson element :: ofElements rest

def ofEntries : List (String × Json) → List (Value × Value)
  | [] => []
  | (key, value) :: rest => (.string key, ofJson value) :: ofEntries rest

end

theorem ofElements_eq_map (elements : List Json) : ofElements elements = elements.map ofJson := by
  induction elements with
  | nil => rfl
  | cons element rest ih => simp [ofElements, ih]

theorem ofEntries_eq_map (entries : Entries Json) :
    ofEntries entries = entries.map fun entry => (.string entry.1, ofJson entry.2) := by
  induction entries with
  | nil => rfl
  | cons entry rest ih => simp [ofEntries, ih]

end Yaml.Value

/-- No key comes twice in an object or is the merge key, and every integer is a word of 64 bits,
signed or unsigned. -/
def Json.Plain : Json → Prop := Everywhere fun
  | .object entries =>
    (entries.map Prod.fst).Nodup ∧ Yaml.Value.mergeKey ∉ entries.map Prod.fst
  | .number (.int value) => Number.leastSigned ≤ value ∧ value < Number.wordLimit
  | _ => True

namespace Yaml

/-- A word passes the signed reading or the unsigned one. -/
theorem intToJson_of_word {value : Int}
    (h : Number.leastSigned ≤ value ∧ value < Number.wordLimit) :
    intToJson value = .number (.int value) := by
  rw [intToJson]
  split
  · rfl
  · next hs =>
      rw [Number.isSigned, Bool.and_eq_true, decide_eq_true_iff, decide_eq_true_iff] at hs
      have hl : Nat.pow 2 63 ≤ value := Int.not_lt.mp fun hn => hs ⟨h.1, hn⟩
      have hn : 0 ≤ value := Int.le_trans (Int.natCast_nonneg _) hl
      have hu : Number.isUnsigned value := by
        rw [Number.isUnsigned, Bool.and_eq_true, decide_eq_true_iff, decide_eq_true_iff]
        exact ⟨hn, h.2⟩
      rw [if_pos hu]

namespace Value

theorem mergeFree_ofJson {value : Json} (h : value.Plain) : (ofJson value).MergeFree := by
  induction value using Json.induction with
  | null => exact everyMapping_scalar _
  | bool value => exact everyMapping_scalar _
  | number number => cases number <;> exact everyMapping_scalar _
  | string text => exact everyMapping_scalar _
  | array elements ih =>
      rw [Json.Plain, Json.everywhere_array_iff] at h
      rw [ofJson, ofElements_eq_map, MergeFree, everyMapping_sequence_iff, List.forall_mem_map]
      exact fun element he => ih element he (h.2 element he)
  | object entries ih =>
      rw [Json.Plain, Json.everywhere_object_iff] at h
      rw [ofJson, ofEntries_eq_map, MergeFree, everyMapping_mapping_iff, NoMergeKey,
        List.forall_mem_map, List.forall_mem_map]
      refine ⟨fun entry he => ?_, fun entry he => ih entry he (h.2 entry he)⟩
      refine beq_eq_false_iff_ne.mpr fun hk => h.1.2 ?_
      exact List.mem_map.mpr ⟨entry, he, hk⟩

theorem toJson_ofJson {value : Json} (h : value.Plain) : (ofJson value).toJson = value := by
  induction value using Json.induction with
  | null => rfl
  | bool value => rfl
  | number number =>
      cases number with
      | int value => exact intToJson_of_word h.self
      | float value => rfl
  | string text => rfl
  | array elements ih =>
      rw [Json.Plain, Json.everywhere_array_iff] at h
      rw [ofJson, ofElements_eq_map, toJson, itemsToJson_eq_map, List.map_map]
      refine congrArg Json.array ?_
      exact (List.map_congr_left fun element he => ih element he (h.2 element he)).trans
        (List.map_id elements)
  | object entries ih =>
      rw [Json.Plain, Json.everywhere_object_iff] at h
      have hp : pairsToJson (ofEntries entries) = entries := by
        rw [ofEntries_eq_map, pairsToJson_eq_map, List.map_map]
        refine (List.map_congr_left fun entry he => ?_).trans (List.map_id entries)
        exact Prod.ext rfl (ih entry he (h.2 entry he))
      rw [ofJson, toJson, hp, Entries.ofPairs_of_nodup h.1.1]

end Value

end Yaml

namespace Document

/-- A plain value gives one document and one report, whichever of the formats it is written in. -/
theorem ofYaml_ofJson {value : Json} (h : value.Plain) :
    (Yaml.Value.ofJson value).merge = .ok (.ofJson value) ∧
      (Yaml.Value.ofJson value).toJson = value ∧
      ofYaml (.ofJson value) = .ok (ofJson value) ∧
      (∀ text, Json.parse? text = some value → ofYaml (.ofJson value) = ofJsonText text) ∧
      ∀ options, (ofYaml (.ofJson value)).map (validate · options) =
        .ok (validate (ofJson value) options) := by
  have hm := Yaml.Value.merge_of_mergeFree (Yaml.Value.mergeFree_ofJson h)
  have hj := Yaml.Value.toJson_ofJson h
  have hd : ofYaml (.ofJson value) = .ok (ofJson value) := by
    rw [ofYaml, hm]
    exact congrArg (fun json => Except.ok (ofJson json)) hj
  refine ⟨hm, hj, hd, fun text ht => ?_, fun options => ?_⟩
  · rw [hd, ofJsonText, ht]
  · rw [hd]
    rfl

/-- Words at both ends of their range, below a path with an operation. -/
def wordsValue : Json :=
  .object [
    ("openapi", .string "3.1.0"),
    ("paths", .object [("/a", .object [("get", .object [("responses", .object [])])])]),
    ("x-words", .array [
      .number (.int (Number.wordLimit - 1)), .number (.int Number.leastSigned), .null])]

theorem ofYaml_ofJson_wordsValue :
    wordsValue.Plain ∧ (Yaml.Value.ofJson wordsValue).toJson = wordsValue ∧
      ofYaml (.ofJson wordsValue) = .ok (ofJson wordsValue) := by
  have h : wordsValue.Plain := by
    simp [wordsValue, Json.Plain, Yaml.Value.mergeKey, Number.leastSigned, Number.wordLimit]
  have hd := ofYaml_ofJson h
  exact ⟨h, hd.2.1, hd.2.2.1⟩

end Document

end ApiLint
