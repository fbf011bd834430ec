import ApiLint.Proofs.Json.Nesting
import ApiLint.Proofs.Yaml.Merge
import ApiLint.Yaml.ToJson
import ApiLint.Yaml.Value.Reading

/-! How deeply the collections of a YAML value are nested. Reading keeps to a bound, and neither a
merge nor keys that become text add a level. -/

namespace ApiLint.Yaml

namespace Value

mutual

/-- The most collections that stand within each other, those in keys among them. -/
def nesting : Value → Nat
  | .scalar _ => 0
  | .sequence items => nestingOfItems items + 1
  | .mapping entries => nestingOfEntries entries + 1
  | .tagged _ value => nesting value

def nestingOfItems : List Value → Nat
  | [] => 0
  | item :: rest => max (nesting item) (nestingOfItems rest)

def nestingOfEntries : List (Value × Value) → Nat
  | [] => 0
  | (key, value) :: rest => max (max (nesting key) (nesting value)) (nestingOfEntries rest)

end

/-- Neither the key nor the value of an entry is nested more deeply than the limit. -/
def EntryWithin (limit : Nat) (entry : Value × Value) : Prop :=
  entry.1.nesting ≤ limit ∧ entry.2.nesting ≤ limit

theorem nesting_sequence_le_iff {items : List Value} {limit : Nat} :
    (sequence items).nesting ≤ limit + 1 ↔ ∀ item ∈ items, item.nesting ≤ limit := by
  rw [nesting, Nat.add_le_add_iff_right]
  induction items with
  | nil => simp [nestingOfItems]
  | cons item rest ih => rw [nestingOfItems, Nat.max_le, ih, List.forall_mem_cons]

theorem nesting_mapping_le_iff {entries : List (Value × Value)} {limit : Nat} :
    (mapping entries).nesting ≤ limit + 1 ↔ ∀ entry ∈ entries, EntryWithin limit entry := by
  rw [nesting, Nat.add_le_add_iff_right]
  induction entries with
  | nil => simp [nestingOfEntries]
  | cons entry rest ih =>
      rw [nestingOfEntries, Nat.max_le, Nat.max_le, ih, List.forall_mem_cons, EntryWithin]

/-! ## Merges and plain values -/

/-- What a mapping inherits was nested below the mapping before. -/
theorem entryWithin_of_mem_mergedEntries {entries merged : List (Value × Value)} {limit : Nat}
    (hn : (mapping entries).nesting ≤ limit + 1) (h : mergedEntries entries = .ok merged)
    {entry : Value × Value} (he : entry ∈ merged) : EntryWithin limit entry := by
  have hn := nesting_mapping_le_iff.mp hn
  rcases mergedEntries_cases h with ⟨-, rfl⟩ | ⟨key, source, own, -, -, hp, rfl⟩
  · exact hn entry he
  · rcases List.mem_append.mp he with he | he
    · exact hn entry (hp.mem_iff.mpr (List.mem_cons_of_mem _ he))
    · obtain ⟨inherited, hi, he⟩ := List.mem_flatten.mp ((gained_sublist _ _).subset he)
      have hs : source.nesting ≤ limit := (hn _ (hp.mem_iff.mpr List.mem_cons_self)).2
      have hm : (mapping inherited).nesting ≤ limit + 1 := by
        cases source with
        | mapping _ =>
            obtain rfl := List.mem_singleton.mp hi
            exact Nat.le_succ_of_le hs
        | sequence items =>
            obtain ⟨item, hm, hi⟩ := List.mem_filterMap.mp hi
            cases item with
            | mapping _ =>
                cases hi
                have hi := nesting_sequence_le_iff.mp (Nat.le_succ_of_le hs) _ hm
                exact Nat.le_succ_of_le hi
            | _ => cases hi
        | _ => cases hi
      exact nesting_mapping_le_iff.mp hm entry he

theorem nesting_merge_le {value result : Value} (h : merge value = .ok result) :
    result.nesting ≤ value.nesting := by
  refine merge_induction (motive := fun value result => result.nesting ≤ value.nesting)
    ?_ ?_ ?_ ?_ value h
  · intro value
    exact Nat.le_refl _
  · intro items results hr
    have hi := nesting_sequence_le_iff.mp (Nat.le_refl (nestingOfItems items + 1))
    refine nesting_sequence_le_iff.mpr fun result hm => ?_
    obtain ⟨item, hm, hle, -⟩ := exists_of_forall₂_right hr hm
    exact Nat.le_trans hle (hi item hm)
  · intro entries merged results hm hr
    refine nesting_mapping_le_iff.mpr fun result he => ?_
    obtain ⟨entry, he, hk, hle, -⟩ := exists_of_forall₂_right hr he
    obtain ⟨hkey, hvalue⟩ := entryWithin_of_mem_mergedEntries
      (Nat.le_refl (nestingOfEntries entries + 1)) hm he
    exact ⟨hk ▸ hkey, Nat.le_trans hle hvalue⟩
  · intro name value result hle _
    exact hle

theorem nesting_toJson_scalar (value : Scalar) : value.toJson.nesting = 0 := by
  cases value with
  | int value =>
      rw [Scalar.toJson, intToJson]
      split
      · rfl
      · split
        · rfl
        · split <;> rfl
  | float value => cases value <;> rfl
  | _ => rfl

theorem nesting_toJson_le (value : Value) : value.toJson.nesting ≤ value.nesting := by
  induction value using Value.induction with
  | scalar value =>
      rw [toJson, nesting_toJson_scalar]
      exact Nat.zero_le _
  | sequence items ih =>
      have hi := nesting_sequence_le_iff.mp (Nat.le_refl (nestingOfItems items + 1))
      rw [toJson, itemsToJson_eq_map]
      refine Json.nesting_array_le_iff.mpr (List.forall_mem_map.mpr fun item hm => ?_)
      exact Nat.le_trans (ih item hm) (hi item hm)
  | mapping entries ih =>
      have hi := nesting_mapping_le_iff.mp (Nat.le_refl (nestingOfEntries entries + 1))
      rw [toJson, pairsToJson_eq_map]
      refine Json.nesting_ofPairs_le (List.forall_mem_map.mpr fun entry hm => ?_)
      exact Nat.le_trans (ih entry hm) (hi entry hm).2
  | tagged name value ih =>
      rw [toJson, nesting]
      exact ih

end Value

/-! ## Texts -/

/-- The reading comes to the value from some number of aliases that are left. -/
def Expansion.Yields {α : Type} (expansion : Expansion α) (value : α) : Prop :=
  ∃ left rest, expansion.run left = some (value, rest)

namespace Expansion.Yields

variable {α β : Type}

theorem of_pure {value other : α} (h : Yields (pure value) other) : other = value := by
  obtain ⟨left, rest, h⟩ := h
  cases h
  rfl

theorem not_failure {value : α} : ¬Yields (failure : Expansion α) value := by
  intro h
  obtain ⟨left, rest, h⟩ := h
  cases h

theorem of_bind {first : Expansion α} {next : α → Expansion β} {result : β}
    (h : Yields (first >>= next) result) :
    ∃ value, first.Yields value ∧ (next value).Yields result := by
  obtain ⟨left, rest, h⟩ := h
  rw [StateT.run_bind] at h
  obtain ⟨⟨value, middle⟩, hf, hn⟩ := Option.bind_eq_some_iff.mp h
  exact ⟨value, ⟨left, middle, hf⟩, middle, rest, hn⟩

theorem of_map {first : Expansion α} {f : α → β} {result : β} (h : Yields (f <$> first) result) :
    ∃ value, first.Yields value ∧ result = f value := by
  rw [map_eq_pure_bind] at h
  obtain ⟨value, hf, hn⟩ := of_bind h
  exact ⟨value, hf, of_pure hn⟩

theorem of_mapM {read : α → Expansion β} {items : List α} {results : List β}
    (h : Yields (items.mapM read) results) :
    ∀ result ∈ results, ∃ item ∈ items, (read item).Yields result := by
  induction items generalizing results with
  | nil =>
      rw [List.mapM_nil] at h
      obtain rfl := of_pure h
      exact nofun
  | cons item rest ih =>
      rw [List.mapM_cons] at h
      obtain ⟨first, hf, h⟩ := of_bind h
      obtain ⟨others, ho, h⟩ := of_bind h
      obtain rfl := of_pure h
      refine List.forall_mem_cons.mpr ⟨⟨item, List.mem_cons_self, hf⟩, fun result hr => ?_⟩
      obtain ⟨other, hm, hy⟩ := ih ho result hr
      exact ⟨other, List.mem_cons_of_mem _ hm, hy⟩

end Expansion.Yields

namespace Value

theorem entryWithin_of_entriesOf {limit : Nat} {entry : Node × Node → Expansion (Value × Value)}
    (h : ∀ first pair, (entry first).Yields pair → EntryWithin limit pair)
    {nodes : List (Node × Node)} {done entries : List (Value × Value)}
    (hd : ∀ pair ∈ done, EntryWithin limit pair)
    (he : (entriesOf entry done nodes).Yields entries) :
    ∀ pair ∈ entries, EntryWithin limit pair := by
  induction nodes generalizing done with
  | nil =>
      rw [entriesOf] at he
      obtain rfl := he.of_pure
      exact fun pair hp => hd pair (List.mem_reverse.mp hp)
  | cons first rest ih =>
      rw [entriesOf] at he
      obtain ⟨⟨key, value⟩, hf, he⟩ := he.of_bind
      have hn : ∀ pair ∈ (key, value) :: done, EntryWithin limit pair :=
        List.forall_mem_cons.mpr ⟨h first _ hf, hd⟩
      dsimp only at he
      split at he
      · obtain ⟨_, hfail, -⟩ := he.of_bind
        exact absurd hfail Expansion.Yields.not_failure
      · exact ih hn he

/-- A reader of the nodes in a collection that has room for one collection less. -/
theorem nesting_le_of_contentOf {read : Option (Node → Expansion Value)} {room : Nat} {node : Node}
    {value : Value} (hr : ∀ inner, read = some inner → ∃ less, room = less + 1 ∧
      ∀ node value, (inner node).Yields value → value.nesting ≤ less)
    (h : (contentOf read node).Yields value) : value.nesting ≤ room := by
  cases node with
  | aliasOf number => exact absurd h Expansion.Yields.not_failure
  | scalar properties style text =>
      simp only [contentOf] at h
      split at h
      · obtain rfl := h.of_pure
        exact Nat.zero_le _
      · exact absurd h Expansion.Yields.not_failure
  | sequence properties items =>
      simp only [contentOf] at h
      split at h
      · obtain ⟨less, rfl, hl⟩ := hr _ rfl
        obtain ⟨results, hm, rfl⟩ := h.of_map
        refine nesting_sequence_le_iff.mpr fun result hi => ?_
        obtain ⟨item, -, hy⟩ := hm.of_mapM result hi
        exact hl item result hy
      · exact absurd h Expansion.Yields.not_failure
  | mapping properties entries =>
      simp only [contentOf] at h
      split at h
      · obtain ⟨less, rfl, hl⟩ := hr _ rfl
        obtain ⟨results, hm, rfl⟩ := h.of_map
        refine nesting_mapping_le_iff.mpr (entryWithin_of_entriesOf ?_ (by simp) hm)
        intro first pair hp
        obtain ⟨key, hk, hp⟩ := hp.of_bind
        obtain ⟨value, hv, hp⟩ := hp.of_bind
        obtain rfl := hp.of_pure
        exact ⟨hl _ _ hk, hl _ _ hv⟩
      · exact absurd h Expansion.Yields.not_failure

theorem nesting_wrap (properties : Properties) (value : Value) :
    (wrap properties value).nesting = value.nesting := by
  unfold wrap
  split <;> rfl

theorem nesting_le_of_ofNode {anchors : Anchors} {room : Nat} {node : Node} {value : Value}
    (h : (ofNode anchors room node).Yields value) : value.nesting ≤ room := by
  induction room generalizing node value with
  | zero =>
      obtain ⟨target, -, h⟩ := h.of_bind
      obtain ⟨content, hc, rfl⟩ := h.of_map
      rw [nesting_wrap]
      exact nesting_le_of_contentOf (by simp) hc
  | succ room ih =>
      obtain ⟨target, -, h⟩ := h.of_bind
      obtain ⟨content, hc, rfl⟩ := h.of_map
      rw [nesting_wrap]
      refine nesting_le_of_contentOf (fun inner hi => ?_) hc
      obtain rfl := Option.some.inj hi
      exact ⟨room, rfl, fun _ _ hy => ih hy⟩

/-- Collections nest no deeper in a text than the bound allows, wherever aliases stand. -/
theorem nesting_le_of_parse? {text : String} {value : Value} (h : parse? text = some value) :
    value.nesting ≤ greatestNesting := by
  obtain ⟨tokens, -, h⟩ := Option.bind_eq_some_iff.mp h
  obtain ⟨document, -, h⟩ := Option.bind_eq_some_iff.mp h
  cases document with
  | none =>
      obtain rfl := Option.some.inj h
      exact Nat.zero_le _
  | some document =>
      obtain ⟨⟨_, rest⟩, hr, rfl⟩ := Option.map_eq_some_iff.mp h
      exact nesting_le_of_ofNode ⟨_, rest, hr⟩

end Value

end ApiLint.Yaml
