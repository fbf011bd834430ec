import ApiLint.Load
import ApiLint.Proofs.Yaml.Merge

/-! One merge is complete exactly if no merge key names a mapping with a merge key of its own. Such
a mapping hands its merge key on, where it stands as an ordinary entry afterwards. -/

namespace ApiLint.Yaml.Value

/-- No mapping in the value has a merge key. -/
def MergeFree : Value → Prop := EveryMapping NoMergeKey

/-! ## Values without merge keys -/

theorem merge_of_mergeFree {value : Value} (h : value.MergeFree) : merge value = .ok value := by
  induction value using induction with
  | scalar value => exact merge_scalar value
  | sequence items ih =>
      rw [MergeFree, everyMapping_sequence_iff] at h
      refine merge_sequence_eq_ok_iff.mpr ⟨items, rfl, List.forall₂_same.mpr ?_⟩
      exact fun item hi => ih item hi (h item hi)
  | mapping entries ih =>
      rw [MergeFree, everyMapping_mapping_iff] at h
      have hm : mergedEntries entries = .ok entries := by
        rw [mergedEntries, takeMerge?_eq_none_iff.mpr h.1]
      refine merge_mapping_eq_ok_iff.mpr ⟨entries, entries, hm, rfl, List.forall₂_same.mpr ?_⟩
      exact fun entry he => ⟨rfl, ih entry he (h.2 entry he)⟩
  | tagged name value ih =>
      rw [MergeFree, everyMapping_tagged_iff] at h
      exact merge_tagged_eq_ok_iff.mpr ⟨value, ih h, rfl⟩

/-! ## A merge makes a value smaller -/

theorem sizeOf_append {α : Type} [SizeOf α] (first second : List α) :
    sizeOf (first ++ second) + 1 = sizeOf first + sizeOf second := by
  induction first with
  | nil => simp only [List.nil_append, List.nil.sizeOf_spec]; omega
  | cons _ _ ih => simp only [List.cons_append, List.cons.sizeOf_spec]; omega

theorem sizeOf_sublist {α : Type} [SizeOf α] {part whole : List α} (h : part.Sublist whole) :
    sizeOf part ≤ sizeOf whole := by
  induction h with
  | slnil => exact Nat.le_refl _
  | cons _ _ ih => simp only [List.cons.sizeOf_spec]; omega
  | cons_cons _ _ ih => simp only [List.cons.sizeOf_spec]; omega

/-- Items that get no larger one by one keep the size of the whole only if each keeps its own. -/
theorem sizeOf_forall₂ {α : Type} [SizeOf α] {condition : α → Prop} {items results : List α}
    (h : List.Forall₂ (fun item result => sizeOf result ≤ sizeOf item ∧
      (sizeOf result = sizeOf item → condition item)) items results) :
    sizeOf results ≤ sizeOf items ∧
      (sizeOf results = sizeOf items → ∀ item ∈ items, condition item) := by
  induction h with
  | nil => simp
  | cons hr _ ih =>
      simp only [List.cons.sizeOf_spec, List.forall_mem_cons]
      refine ⟨by omega, fun he => ⟨hr.2 (by omega), ih.2 (by omega)⟩⟩

theorem sizeOf_named (source : Value) : sizeOf (named source).flatten ≤ sizeOf source := by
  have hitems (items : List Value) :
      sizeOf (items.filterMap entries?).flatten ≤ sizeOf items := by
    induction items with
    | nil => simp
    | cons item rest ih =>
        have hr : sizeOf rest ≤ sizeOf (item :: rest) := by
          rw [List.cons.sizeOf_spec]
          omega
        cases item with
        | mapping entries =>
            have := sizeOf_append entries (rest.filterMap entries?).flatten
            simp only [entries?, List.filterMap_cons, List.flatten_cons, List.cons.sizeOf_spec,
              mapping.sizeOf_spec]
            omega
        | _ => exact Nat.le_trans ih hr
  cases source with
  | mapping entries =>
      simp only [named, List.flatten_singleton, mapping.sizeOf_spec]
      omega
  | sequence items =>
      have := hitems items
      simp only [named, sequence.sizeOf_spec]
      omega
  | scalar value =>
      simp only [named, List.flatten_nil, List.nil.sizeOf_spec, scalar.sizeOf_spec]
      omega
  | tagged name value =>
      simp only [named, List.flatten_nil, List.nil.sizeOf_spec, tagged.sizeOf_spec]
      omega

/-- A merge key costs at least what it brings in. -/
theorem sizeOf_mergedEntries_le {entries merged : List (Value × Value)}
    (h : mergedEntries entries = .ok merged) :
    sizeOf merged ≤ sizeOf entries ∧
      (sizeOf merged = sizeOf entries → NoMergeKey entries ∧ merged = entries) := by
  rcases mergedEntries_cases h with ⟨hn, rfl⟩ | ⟨key, source, own, -, -, hp, rfl⟩
  · exact ⟨Nat.le_refl _, fun _ => ⟨hn, rfl⟩⟩
  · have he := hp.sizeOf_eq_sizeOf
    have ha := sizeOf_append own (gained own (named source).flatten)
    have hg := sizeOf_sublist (gained_sublist own (named source).flatten)
    have hs := sizeOf_named source
    simp only [List.cons.sizeOf_spec, Prod.mk.sizeOf_spec] at he
    exact ⟨by omega, fun _ => by omega⟩

/-- A merge that keeps the size of a value had nothing to merge in it. -/
theorem sizeOf_merge {value result : Value} (h : merge value = .ok result) :
    sizeOf result ≤ sizeOf value ∧ (sizeOf result = sizeOf value → value.MergeFree) := by
  refine merge_induction (motive := fun value result => sizeOf result ≤ sizeOf value ∧
    (sizeOf result = sizeOf value → value.MergeFree)) ?_ ?_ ?_ ?_ value h
  · intro value
    exact ⟨Nat.le_refl _, fun _ => everyMapping_scalar value⟩
  · intro items results hr
    have := sizeOf_forall₂ (hr.imp fun _ _ h => h.1)
    simp only [sequence.sizeOf_spec, MergeFree, everyMapping_sequence_iff]
    exact ⟨by omega, fun he => this.2 (by omega)⟩
  · intro entries merged results hm hr
    have hv : sizeOf results ≤ sizeOf merged ∧
        (sizeOf results = sizeOf merged → ∀ entry ∈ merged, entry.2.MergeFree) := by
      refine sizeOf_forall₂ (hr.imp fun entry result h => ?_)
      obtain ⟨key, value⟩ := entry
      obtain ⟨key', value'⟩ := result
      obtain ⟨rfl, hs, -⟩ := h
      simp only [Prod.mk.sizeOf_spec] at hs ⊢
      exact ⟨by omega, fun he => hs.2 (by omega)⟩
    have he := sizeOf_mergedEntries_le hm
    simp only [mapping.sizeOf_spec, MergeFree, everyMapping_mapping_iff]
    refine ⟨by omega, fun hs => ?_⟩
    obtain ⟨hn, rfl⟩ := he.2 (by omega)
    exact ⟨hn, hv.2 (by omega)⟩
  · intro name value result ih _
    simp only [tagged.sizeOf_spec, MergeFree, everyMapping_tagged_iff]
    exact ⟨by omega, fun he => ih.2 (by omega)⟩

/-- A second merge changes nothing exactly if no merge key is left. -/
theorem merge_eq_self_iff {value : Value} : merge value = .ok value ↔ value.MergeFree :=
  ⟨fun h => (sizeOf_merge h).2 rfl, merge_of_mergeFree⟩

/-! ## Where merge keys are left -/

theorem hasKey_mergeKey {entries : List (Value × Value)} (h : NoMergeKey entries) :
    hasKey entries (.string mergeKey) = false := by
  refine List.any_eq_false.mpr fun entry he hs => ?_
  have := h entry he
  rw [isMergeKey_iff.mpr (same_string_iff.mp hs)] at this
  cases this

/-- A mapping without merge key gains one if there is one among the merged entries. -/
theorem noMergeKey_of_gained {own merged : List (Value × Value)} (ho : NoMergeKey own)
    (h : NoMergeKey (gained own merged)) : NoMergeKey merged := by
  induction merged generalizing own with
  | nil => exact h
  | cons entry rest ih =>
      rw [gained] at h
      cases hk : isMergeKey entry.1 with
      | true =>
          rw [isMergeKey_iff.mp hk, hasKey_mergeKey ho] at h
          have := h entry List.mem_cons_self
          rw [hk] at this
          cases this
      | false =>
          refine List.forall_mem_cons.mpr ⟨hk, ?_⟩
          split at h
          · exact ih ho h
          · refine ih ?_ fun other hm => h other (List.mem_cons_of_mem _ hm)
            intro other hm
            rcases List.mem_append.mp hm with hm | hm
            · exact ho other hm
            · rw [List.mem_singleton.mp hm, hk]

/-- No mapping that a merge key names has a merge key itself. -/
def Unchained (entries : List (Value × Value)) : Prop :=
  ∀ key source merged, (key, source) ∈ entries → isMergeKey key → merged ∈ named source →
    NoMergeKey merged

theorem noMergeKey_mergedEntries_iff {entries merged : List (Value × Value)}
    (hu : entries.Pairwise fun first second => first.1.same second.1 = false)
    (h : mergedEntries entries = .ok merged) : NoMergeKey merged ↔ Unchained entries := by
  rcases mergedEntries_cases h with ⟨hn, rfl⟩ | ⟨key, source, own, hk, -, hp, rfl⟩
  · refine iff_of_true hn ?_
    intro key source merged he hk
    rw [hn _ he] at hk
    cases hk
  · have ho := noMergeKey_of_perm hu hk hp
    constructor
    · intro hn key' source' merged he hk' hm
      obtain ⟨-, rfl⟩ : key' = key ∧ source' = source := by
        rcases List.mem_cons.mp (hp.mem_iff.mp he) with he | he
        · exact Prod.mk.inj he
        · rw [ho _ he] at hk'
          cases hk'
      have hg : NoMergeKey (gained own (named source').flatten) :=
        fun entry he => hn entry (List.mem_append_right _ he)
      exact fun entry he =>
        noMergeKey_of_gained ho hg entry (List.mem_flatten.mpr ⟨merged, hm, he⟩)
    · intro hn entry he
      rcases List.mem_append.mp he with he | he
      · exact ho entry he
      · obtain ⟨merged, hm, he⟩ := List.mem_flatten.mp ((gained_sublist _ _).subset he)
        exact hn key source merged (hp.mem_iff.mpr List.mem_cons_self) hk hm entry he

theorem exists_mapping_of_merge {value : Value} {results : List (Value × Value)}
    (h : merge value = .ok (.mapping results)) : ∃ entries, value = .mapping entries := by
  cases value with
  | mapping entries => exact ⟨entries, rfl⟩
  | scalar value =>
      rw [merge_scalar] at h
      cases h
  | sequence items =>
      obtain ⟨_, he, -⟩ := merge_sequence_eq_ok_iff.mp h
      cases he
  | tagged name value =>
      obtain ⟨_, -, he⟩ := merge_tagged_eq_ok_iff.mp h
      cases he

theorem mergeFree_merge_iff {tree result : Value} (hu : tree.UniqueKeys)
    (h : merge tree = .ok result) :
    result.MergeFree ↔ ∀ entries, tree.Visits (.mapping entries) → Unchained entries := by
  constructor
  · intro hf entries hv
    obtain ⟨_, hm, hc⟩ := hv.exists_merge h
    obtain ⟨merged, results, he, rfl, hr⟩ := merge_mapping_eq_ok_iff.mp hm
    refine (noMergeKey_mergedEntries_iff (hu entries hv.contains) he).mp fun entry hi => ?_
    obtain ⟨result, hi, hk, -⟩ := exists_of_forall₂_left hr hi
    rw [hk]
    exact hf results hc result hi
  · intro hn results hc result hi
    obtain ⟨origin, hv, ho⟩ := exists_visits h _ hc
    obtain ⟨entries, rfl⟩ := exists_mapping_of_merge ho
    obtain ⟨merged, _, he, hs, hr⟩ := merge_mapping_eq_ok_iff.mp ho
    cases hs
    obtain ⟨entry, hi, hk, -⟩ := exists_of_forall₂_right hr hi
    rw [← hk]
    exact (noMergeKey_mergedEntries_iff (hu entries hv.contains) he).mpr (hn entries hv) entry hi

/-- One merge leaves no merge key, and a second one changes nothing, exactly if all mappings that
the merge comes to are unchained. -/
theorem merge_complete_iff {tree result : Value} (hu : tree.UniqueKeys)
    (h : merge tree = .ok result) :
    (result.MergeFree ↔ ∀ entries, tree.Visits (.mapping entries) → Unchained entries) ∧
      (merge result = .ok result ↔
        ∀ entries, tree.Visits (.mapping entries) → Unchained entries) := by
  rw [merge_eq_self_iff]
  exact ⟨mergeFree_merge_iff hu h, mergeFree_merge_iff hu h⟩

/-- A description with one path item, whose merge key names a mapping with the given entries. -/
def inheritingDocument (entries : List (Value × Value)) : Value :=
  .mapping [(.string "paths", .mapping [(.string "/a", .mapping [
    (.string mergeKey, .mapping entries)])])]

/-- The keys on the way to the path item are no merge keys. -/
theorem merge_inheritingDocument {entries : List (Value × Value)} {result : Value}
    (h : merge (.mapping [(.string mergeKey, .mapping entries)]) = .ok result) :
    merge (inheritingDocument entries) =
      .ok (.mapping [(.string "paths", .mapping [(.string "/a", result)])]) := by
  have hp : merge (.mapping [(.string "/a", .mapping [(.string mergeKey, .mapping entries)])]) =
      .ok (.mapping [(.string "/a", result)]) :=
    merge_mapping_eq_ok_iff.mpr ⟨_, _, rfl, rfl, .cons ⟨rfl, h⟩ .nil⟩
  exact merge_mapping_eq_ok_iff.mpr ⟨_, _, rfl, rfl, .cons ⟨rfl, hp⟩ .nil⟩

def sharedOperations : List (Value × Value) := [(.string "get", .mapping [])]

/-- A mapping that inherits the operations itself. -/
def chainedOperations : List (Value × Value) := [(.string mergeKey, .mapping sharedOperations)]

theorem merge_complete_iff_sharedOperations :
    (inheritingDocument sharedOperations).UniqueKeys ∧
      ∃ result, merge (inheritingDocument sharedOperations) = .ok result ∧ result.MergeFree ∧
        merge result = .ok result ∧
        ∀ entries, (inheritingDocument sharedOperations).Visits (.mapping entries) →
          Unchained entries := by
  have hu : (inheritingDocument sharedOperations).UniqueKeys := by
    simp [inheritingDocument, sharedOperations, UniqueKeys, string]
  have he : merge (.mapping []) = .ok (.mapping []) :=
    merge_of_mergeFree (by simp [MergeFree, NoMergeKey])
  have hm : merge (inheritingDocument sharedOperations) = .ok (.mapping [(.string "paths",
      .mapping [(.string "/a", .mapping [(.string "get", .mapping [])])])]) :=
    merge_inheritingDocument
      (merge_mapping_eq_ok_iff.mpr ⟨_, _, rfl, rfl, .cons ⟨rfl, he⟩ .nil⟩)
  have hs := merge_complete_iff hu hm
  have hf : ∀ entries, (inheritingDocument sharedOperations).Visits (.mapping entries) →
      Unchained entries := by
    refine hs.1.mp ?_
    simp [MergeFree, NoMergeKey, isMergeKey, mergeKey, string]
  exact ⟨hu, _, hm, hs.1.mpr hf, hs.2.mpr hf, hf⟩

/-- Operations that a mapping inherits through another one are no operations of the path item. -/
theorem merge_chainedOperations :
    (inheritingDocument chainedOperations).UniqueKeys ∧
      ∃ result document, merge (inheritingDocument chainedOperations) = .ok result ∧
        ¬result.MergeFree ∧ merge result ≠ .ok result ∧
        Document.ofYaml (inheritingDocument chainedOperations) = .ok document ∧
        document.pathItems = [("/a", ⟨[], [("<<", .object [("get", .object [])])]⟩)] := by
  have hu : (inheritingDocument chainedOperations).UniqueKeys := by
    simp [inheritingDocument, chainedOperations, sharedOperations, UniqueKeys, string]
  have hs : merge (.mapping sharedOperations) = .ok (.mapping sharedOperations) :=
    merge_of_mergeFree
      (by simp [sharedOperations, MergeFree, NoMergeKey, isMergeKey, mergeKey, string])
  have hm : merge (inheritingDocument chainedOperations) =
      .ok (inheritingDocument sharedOperations) :=
    merge_inheritingDocument
      (merge_mapping_eq_ok_iff.mpr ⟨_, _, rfl, rfl, .cons ⟨rfl, hs⟩ .nil⟩)
  have hd : Document.ofYaml (inheritingDocument chainedOperations) =
      .ok (.ofJson (inheritingDocument sharedOperations).toJson) := by
    rw [Document.ofYaml, hm]
  have hn : ¬(inheritingDocument sharedOperations).MergeFree := by
    simp [inheritingDocument, MergeFree, NoMergeKey, isMergeKey, string]
  have hk : HttpMethod.ofKey? mergeKey = none := by decide +kernel
  have hi : PathItem.ofJson (.object [(mergeKey, .object [("get", .object [])])]) =
      ⟨[], [(mergeKey, .object [("get", .object [])])]⟩ := by
    simp [PathItem.ofJson, PathItem.ofJson.entries, Json.entries?, hk]
  exact ⟨hu, _, _, hm, hn, mt merge_eq_self_iff.mp hn, hd,
    congrArg (fun item => [("/a", item)]) hi⟩

end ApiLint.Yaml.Value
