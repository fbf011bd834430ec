import ApiLint.Proofs.Entries
import ApiLint.Proofs.Yaml.Merge
import ApiLint.Yaml.ToJson

/-! Which entry of a mapping prevails under a text. A merge compares keys as values, so that a
mapping may inherit an entry whose key has the text of one of its own. Such an entry comes later and
prevails. -/

namespace ApiLint.Yaml.Value

/-- The entries that a mapping gets by its merge; they follow its own ones. -/
def inherited (entries : List (Value × Value)) : List (Value × Value) :=
  match takeMerge? entries with
  | none => []
  | some (source, own) => gained own (named source).flatten

theorem mergedEntries_eq_append {entries merged : List (Value × Value)}
    (hu : entries.Pairwise fun first second => first.1.same second.1 = false)
    (h : mergedEntries entries = .ok merged) :
    ∃ own, merged = own ++ inherited entries ∧
      own.Perm (entries.filter fun entry => !isMergeKey entry.1) := by
  rcases mergedEntries_cases h with ⟨hn, rfl⟩ | ⟨key, source, own, hk, ht, hp, rfl⟩
  · have hs : merged.filter (fun entry => !isMergeKey entry.1) = merged :=
      List.filter_eq_self.mpr fun entry he => by rw [hn entry he, Bool.not_false]
    refine ⟨merged, ?_, by rw [hs]⟩
    rw [inherited, takeMerge?_eq_none_iff.mpr hn, List.append_nil]
  · have ho := noMergeKey_of_perm hu hk hp
    have hs : own.filter (fun entry => !isMergeKey entry.1) = own :=
      List.filter_eq_self.mpr fun entry he => by rw [ho entry he, Bool.not_false]
    refine ⟨own, by rw [inherited, ht], ?_⟩
    have hf := hp.filter fun entry => !isMergeKey entry.1
    rw [List.filter_cons_of_neg (by simp [hk]), hs] at hf
    exact hf.symm

/-- The last entry under a text. -/
def lastUnder (text : String) (entries : List (Value × Value)) : Option (Value × Value) :=
  entries.reverse.find? fun entry => entry.1.keyText = text

theorem lookup_toJson_mapping (text : String) (entries : List (Value × Value)) :
    (Entries.ofPairs (pairsToJson entries)).lookup text =
      (lastUnder text entries).map fun entry => entry.2.toJson := by
  rw [Entries.lookup_ofPairs, pairsToJson_eq_map, ← List.map_reverse, lastUnder]
  induction entries.reverse with
  | nil => rfl
  | cons entry rest ih =>
      rw [List.map_cons, Entries.lookup_cons, List.find?_cons, ih]
      by_cases h : entry.1.keyText = text
      · simp [h]
      · simp [h, Ne.symm h]

theorem lastUnder_append (text : String) (first second : List (Value × Value)) :
    lastUnder text (first ++ second) = (lastUnder text second).or (lastUnder text first) := by
  rw [lastUnder, List.reverse_append, List.find?_append]
  rfl

theorem lastUnder_eq_none_iff {text : String} {entries : List (Value × Value)} :
    lastUnder text entries = none ↔ ∀ entry ∈ entries, entry.1.keyText ≠ text := by
  simp [lastUnder]

theorem mem_of_lastUnder {text : String} {entries : List (Value × Value)} {entry : Value × Value}
    (h : lastUnder text entries = some entry) : entry ∈ entries ∧ entry.1.keyText = text :=
  ⟨List.mem_reverse.mp (List.mem_of_find?_eq_some h), by simpa using List.find?_some h⟩

/-- Values may change under their keys. -/
theorem lastUnder_forall₂ (r : Value → Value → Prop) {text : String}
    {entries results : List (Value × Value)} {entry : Value × Value}
    (h : List.Forall₂ (fun entry result => entry.1 = result.1 ∧ r entry.2 result.2) entries results)
    (he : lastUnder text entries = some entry) :
    ∃ result, lastUnder text results = some result ∧ r entry.2 result.2 := by
  rw [lastUnder] at he ⊢
  rw [← List.forall₂_reverse_iff] at h
  generalize entries.reverse = entries at h he
  generalize results.reverse = results at h
  induction h with
  | nil => cases he
  | @cons first result _ _ hr _ ih =>
      rw [List.find?_cons, ← hr.1]
      rw [List.find?_cons] at he
      split at he
      · obtain rfl := Option.some.inj he
        exact ⟨result, rfl, hr.2⟩
      · exact ih he

/-- An entry that is the only one of the mapping's own with its text prevails under that text
exactly if the mapping inherits no entry with the text; else the last inherited one does. -/
theorem lookup_own_entry {tree result : Value} (hu : tree.UniqueKeys) (h : merge tree = .ok result)
    {entries : List (Value × Value)} (hv : tree.Visits (.mapping entries)) {key value : Value}
    (he : (key, value) ∈ entries) (hk : isMergeKey key = false)
    (ht : ∀ entry ∈ entries, isMergeKey entry.1 = false → entry.1.keyText = key.keyText →
      entry = (key, value)) :
    ∃ members object plain, merge (.mapping entries) = .ok members ∧ result.Contains members ∧
      members.toJson = .object object ∧ merge value = .ok plain ∧
      ((∀ entry ∈ inherited entries, entry.1.keyText ≠ key.keyText) →
        object.lookup key.keyText = some plain.toJson) ∧
      ∀ last, lastUnder key.keyText (inherited entries) = some last →
        ∃ other, merge last.2 = .ok other ∧ object.lookup key.keyText = some other.toJson := by
  obtain ⟨_, hm, hc⟩ := hv.exists_merge h
  obtain ⟨merged, results, hi, rfl, hr⟩ := merge_mapping_eq_ok_iff.mp hm
  obtain ⟨own, rfl, hp⟩ := mergedEntries_eq_append (hu entries hv.contains) hi
  have hlookup : ∀ entry, lastUnder key.keyText (own ++ inherited entries) = some entry →
      ∃ other, merge entry.2 = .ok other ∧
        (Entries.ofPairs (pairsToJson results)).lookup key.keyText = some other.toJson := by
    intro entry hl
    obtain ⟨result, hl, hr⟩ :=
      lastUnder_forall₂ (fun value result => merge value = .ok result) hr hl
    exact ⟨result.2, hr, by rw [lookup_toJson_mapping, hl, Option.map_some]⟩
  have hmem (entry : Value × Value) :
      entry ∈ own ↔ entry ∈ entries ∧ isMergeKey entry.1 = false := by
    rw [hp.mem_iff, List.mem_filter, Bool.not_eq_true']
  have hown : lastUnder key.keyText own = some (key, value) := by
    cases hl : lastUnder key.keyText own with
    | none => exact absurd rfl (lastUnder_eq_none_iff.mp hl _ ((hmem _).mpr ⟨he, hk⟩))
    | some entry =>
        obtain ⟨ho, hs⟩ := mem_of_lastUnder hl
        obtain ⟨hi, hn⟩ := (hmem entry).mp ho
        rw [ht entry hi hn hs]
  have hlast : lastUnder key.keyText (own ++ inherited entries) =
      (lastUnder key.keyText (inherited entries)).or (some (key, value)) := by
    rw [lastUnder_append, hown]
  obtain ⟨plain, -, -, hplain⟩ :=
    exists_of_forall₂_left hr (List.mem_append_left _ ((hmem _).mpr ⟨he, hk⟩))
  refine ⟨_, _, plain.2, hm, hc, rfl, hplain, ?_, ?_⟩
  · intro hn
    rw [lastUnder_eq_none_iff.mpr hn] at hlast
    obtain ⟨other, ho, hs⟩ := hlookup _ hlast
    rwa [Except.ok.inj (hplain.symm.trans ho)]
  · intro last hl
    rw [hl] at hlast
    exact hlookup last hlast

/-- Responses of which one has the given key, and the others are inherited. -/
def responsesWith (key : Value) : List (Value × Value) :=
  [(.string mergeKey,
      .mapping [(.string "200", .string "inherited"), (.string "404", .scalar .null)]),
    (key, .string "own")]

theorem lookup_own_entry_quoted :
    (mapping (responsesWith (.string "200"))).UniqueKeys ∧
      (∀ entry ∈ inherited (responsesWith (.string "200")), entry.1.keyText ≠ "200") ∧
      ∃ members object, merge (.mapping (responsesWith (.string "200"))) = .ok members ∧
        members.toJson = .object object ∧ object.lookup "200" = some (.string "own") := by
  have hu : (mapping (responsesWith (.string "200"))).UniqueKeys := by
    simp [responsesWith, UniqueKeys, string, same, Scalar.same, mergeKey]
  have hm : merge (.mapping (responsesWith (.string "200"))) = .ok (.mapping
      [(.string "200", .string "own"), (.string "404", .scalar .null)]) :=
    merge_mapping_eq_ok_iff.mpr
      ⟨_, _, rfl, rfl, .cons ⟨rfl, merge_scalar _⟩ (.cons ⟨rfl, merge_scalar _⟩ .nil)⟩
  have hi : inherited (responsesWith (.string "200")) = [(.string "404", .scalar .null)] :=
    rfl
  have hn : ∀ entry ∈ inherited (responsesWith (.string "200")), entry.1.keyText ≠ "200" := by
    rw [hi, List.forall_mem_singleton]
    decide
  have ht : ∀ entry ∈ responsesWith (.string "200"), isMergeKey entry.1 = false →
      entry.1.keyText = (string "200").keyText → entry = (.string "200", .string "own") := by
    simp [responsesWith, string, isMergeKey, mergeKey]
  obtain ⟨members, object, plain, hm, -, ho, hp, hown, -⟩ :=
    lookup_own_entry hu hm (.self _) (by simp [responsesWith]) rfl ht
  obtain rfl := Except.ok.inj ((merge_scalar _).symm.trans hp)
  exact ⟨hu, hn, members, object, hm, ho, hown hn⟩

/-- An unquoted code is another key than the quoted one, and loses against it. -/
theorem lookup_own_entry_unquoted :
    (mapping (responsesWith (.scalar (.int 200)))).UniqueKeys ∧
      (∀ entry ∈ responsesWith (.scalar (.int 200)), isMergeKey entry.1 = false →
        entry = (.scalar (.int 200), .string "own")) ∧
      keyText (.scalar (.int 200)) = "200" ∧
      ∃ members object, merge (.mapping (responsesWith (.scalar (.int 200)))) = .ok members ∧
        members.toJson = .object object ∧ object.lookup "200" = some (.string "inherited") := by
  have hu : (mapping (responsesWith (.scalar (.int 200)))).UniqueKeys := by
    simp [responsesWith, UniqueKeys, string, same, Scalar.same, mergeKey]
  have hown : ∀ entry ∈ responsesWith (.scalar (.int 200)), isMergeKey entry.1 = false →
      entry = (.scalar (.int 200), .string "own") := by
    simp [responsesWith, string, isMergeKey, mergeKey]
  have hm : merge (.mapping (responsesWith (.scalar (.int 200)))) = .ok (.mapping
      [(.scalar (.int 200), .string "own"), (.string "200", .string "inherited"),
        (.string "404", .scalar .null)]) :=
    merge_mapping_eq_ok_iff.mpr ⟨_, _, rfl, rfl, .cons ⟨rfl, merge_scalar _⟩
      (.cons ⟨rfl, merge_scalar _⟩ (.cons ⟨rfl, merge_scalar _⟩ .nil))⟩
  exact ⟨hu, hown, rfl, _, [("200", .string "inherited"), ("404", .null)], hm, rfl, rfl⟩

end ApiLint.Yaml.Value
