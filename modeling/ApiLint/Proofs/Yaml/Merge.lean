import ApiLint.Proofs.Yaml.Tree
import Mathlib.Data.List.Forall2
import Mathlib.Data.List.Perm.Basic

/-! What a merge makes of a value. A mapping keeps its own entries and gets those of the mappings
that its merge key names; then the values in it are merged one by one. -/

namespace ApiLint.Yaml.Value

/-! ## One mapping -/

def entries? : Value → Option (List (Value × Value))
  | .mapping entries => some entries
  | _ => none

/-- The mappings that the value of a merge key names. -/
def named : Value → List (List (Value × Value))
  | .mapping entries => [entries]
  | .sequence items => items.filterMap entries?
  | _ => []

/-- The entries among the merged ones that are taken over. -/
def gained (own : List (Value × Value)) : List (Value × Value) → List (Value × Value)
  | [] => []
  | entry :: rest =>
    if hasKey own entry.1 then gained own rest else entry :: gained (own ++ [entry]) rest

/-- No entry has a merge key. -/
def NoMergeKey (entries : List (Value × Value)) : Prop :=
  ∀ entry ∈ entries, isMergeKey entry.1 = false

theorem takeOver_eq_append (own merged : List (Value × Value)) :
    takeOver own merged = own ++ gained own merged := by
  induction merged generalizing own with
  | nil => simp [takeOver, gained]
  | cons entry rest ih =>
      rw [takeOver, List.foldl_cons, gained]
      split
      · exact ih own
      · refine (ih (own ++ [entry])).trans ?_
        rw [List.append_assoc]
        rfl

theorem gained_sublist (own merged : List (Value × Value)) :
    (gained own merged).Sublist merged := by
  induction merged generalizing own with
  | nil => exact .slnil
  | cons entry rest ih =>
      rw [gained]
      split
      · exact (ih own).cons entry
      · exact (ih (own ++ [entry])).cons_cons entry

theorem takeOver_append (own first second : List (Value × Value)) :
    takeOver own (first ++ second) = takeOver (takeOver own first) second := by
  rw [takeOver, List.foldl_append]
  rfl

theorem takeOverEach_eq_ok {own result : List (Value × Value)} {items : List Value}
    (h : takeOverEach own items = .ok result) :
    result = takeOver own (named (.sequence items)).flatten := by
  induction items generalizing own with
  | nil =>
      cases h
      rfl
  | cons item rest ih =>
      cases item with
      | mapping entries =>
          rw [ih h, ← takeOver_append]
          rfl
      | scalar _ => simp [takeOverEach] at h
      | sequence _ => simp [takeOverEach] at h
      | tagged _ _ => simp [takeOverEach] at h

theorem takeMerge?_eq_none_iff {entries : List (Value × Value)} :
    takeMerge? entries = none ↔ NoMergeKey entries := by
  induction entries with
  | nil => simp [takeMerge?, NoMergeKey]
  | cons entry rest ih =>
      rw [takeMerge?, NoMergeKey, List.forall_mem_cons]
      cases hk : isMergeKey entry.1 with
      | true => cases hl : rest.getLast? <;> simp
      | false => simpa [NoMergeKey] using ih

theorem perm_of_takeMerge? {entries own : List (Value × Value)} {source : Value}
    (h : takeMerge? entries = some (source, own)) :
    ∃ key, isMergeKey key ∧ entries.Perm ((key, source) :: own) := by
  induction entries generalizing own with
  | nil => cases h
  | cons entry rest ih =>
      rw [takeMerge?] at h
      cases hk : isMergeKey entry.1 with
      | true =>
          refine ⟨entry.1, hk, ?_⟩
          rw [if_pos hk] at h
          cases hl : rest.getLast? with
          | none =>
              rw [hl] at h
              obtain ⟨rfl, rfl⟩ := Prod.mk.inj (Option.some.inj h)
              rw [List.getLast?_eq_none_iff.mp hl]
          | some last =>
              rw [hl] at h
              obtain ⟨rfl, rfl⟩ := Prod.mk.inj (Option.some.inj h)
              refine List.Perm.cons _ ?_
              conv_lhs => rw [← List.dropLast_append_getLast? last hl]
              exact List.perm_append_singleton last rest.dropLast
      | false =>
          rw [if_neg (by simp [hk])] at h
          obtain ⟨⟨_, rest'⟩, hr, he⟩ := Option.map_eq_some_iff.mp h
          obtain ⟨rfl, rfl⟩ := Prod.mk.inj he
          obtain ⟨key, hm, hp⟩ := ih hr
          exact ⟨key, hm, (hp.cons entry).trans (List.Perm.swap _ _ _)⟩

/-- A merge leaves a mapping without merge key as it is. In any other one the entry with the merge
key gives way to the entries that are gained. -/
theorem mergedEntries_cases {entries merged : List (Value × Value)}
    (h : mergedEntries entries = .ok merged) :
    NoMergeKey entries ∧ merged = entries ∨ ∃ key source own, isMergeKey key ∧
      takeMerge? entries = some (source, own) ∧ entries.Perm ((key, source) :: own) ∧
        merged = own ++ gained own (named source).flatten := by
  cases ht : takeMerge? entries with
  | none =>
      rw [mergedEntries, ht] at h
      cases h
      exact .inl ⟨takeMerge?_eq_none_iff.mp ht, rfl⟩
  | some taken =>
      obtain ⟨source, own⟩ := taken
      obtain ⟨key, hk, hp⟩ := perm_of_takeMerge? ht
      refine .inr ⟨key, source, own, hk, rfl, hp, ?_⟩
      rw [← takeOver_eq_append]
      rw [mergedEntries, ht] at h
      cases source with
      | mapping merged =>
          cases h
          simp [named]
      | sequence items => exact takeOverEach_eq_ok h
      | tagged name value => cases h
      | scalar value => cases h

theorem isMergeKey_iff {key : Value} : isMergeKey key ↔ key = .string mergeKey := by
  cases key with
  | scalar value => cases value <;> simp [isMergeKey, string]
  | _ => simp [isMergeKey, string]

theorem same_string_iff {key : Value} {text : String} :
    key.same (.string text) ↔ key = .string text := by
  cases key with
  | scalar value => cases value <;> simp [same, Scalar.same, string]
  | _ => simp [same, string]

/-- Where no two keys are equal, one of them at most is a merge key. -/
theorem noMergeKey_of_perm {entries own : List (Value × Value)} {key source : Value}
    (hu : entries.Pairwise fun first second => first.1.same second.1 = false)
    (hk : isMergeKey key) (hp : entries.Perm ((key, source) :: own)) : NoMergeKey own := by
  have hone : entries.Pairwise fun first second => ¬(isMergeKey first.1 ∧ isMergeKey second.1) := by
    refine hu.imp fun hs hm => ?_
    rw [isMergeKey_iff.mp hm.1, isMergeKey_iff.mp hm.2, same_string_iff.mpr rfl] at hs
    cases hs
  have hcons := (hp.pairwise_iff fun h hm => h hm.symm).mp hone
  intro entry he
  rw [← Bool.not_eq_true]
  exact fun hm => (List.pairwise_cons.mp hcons).1 entry he ⟨hk, hm⟩

/-! ## A whole value -/

theorem mapM_eq_ok_iff {α β ε : Type} {f : α → Except ε β} {items : List α} {results : List β} :
    items.mapM f = .ok results ↔
      List.Forall₂ (fun item result => f item = .ok result) items results := by
  induction items generalizing results with
  | nil => cases results <;> simp [pure, Except.pure]
  | cons item rest ih =>
      rw [List.mapM_cons]
      cases h : f item with
      | error error => cases results <;> simp [bind, Except.bind, h]
      | ok value =>
          cases hr : rest.mapM f with
          | error error => cases results <;> simp [bind, Except.bind, ← ih, hr, h]
          | ok values =>
              cases results <;> simp [bind, Except.bind, pure, Except.pure, ← ih, hr, h]

theorem bind_eq_ok_iff {α β ε : Type} {x : Except ε α} {f : α → Except ε β} {result : β} :
    x >>= f = .ok result ↔ ∃ value, x = .ok value ∧ f value = .ok result := by
  cases x <;> simp [bind, Except.bind]

/-- The last item is visited first, and the results come in that order. -/
theorem mapM_attach_reverse_eq_ok_iff {α β ε : Type} {f : α → Except ε β} {items : List α}
    {results : List β} :
    (items.attach.reverse.mapM fun item => f item.1) = .ok results ↔
      List.Forall₂ (fun item result => f item = .ok result) items results.reverse := by
  have hm := List.forall₂_map_left_iff (f := Subtype.val) (l := items.attach)
    (R := fun item result => f item = .ok result) (u := results.reverse)
  rw [List.attach_map_subtype_val] at hm
  rw [mapM_eq_ok_iff, ← List.forall₂_reverse_iff, List.reverse_reverse]
  exact hm.symm

theorem merge_scalar (value : Scalar) : merge (.scalar value) = .ok (.scalar value) := by
  rw [merge]

theorem merge_tagged_eq_ok_iff {name : String} {value result : Value} :
    merge (.tagged name value) = .ok result ↔
      ∃ inner, merge value = .ok inner ∧ result = .tagged name inner := by
  rw [merge]
  cases merge value <;> simp [Except.map, eq_comm]

theorem merge_sequence_eq_ok_iff {items : List Value} {result : Value} :
    merge (.sequence items) = .ok result ↔ ∃ results, result = .sequence results ∧
      List.Forall₂ (fun item result => merge item = .ok result) items results := by
  rw [merge, bind_eq_ok_iff]
  constructor
  · intro h
    obtain ⟨results, hr, he⟩ := h
    cases he
    exact ⟨results.reverse, rfl, mapM_attach_reverse_eq_ok_iff.mp hr⟩
  · intro h
    obtain ⟨results, rfl, hr⟩ := h
    rw [← List.reverse_reverse results] at hr ⊢
    exact ⟨results.reverse, mapM_attach_reverse_eq_ok_iff.mpr hr, rfl⟩

theorem merge_mapping_eq_ok_iff {entries : List (Value × Value)} {result : Value} :
    merge (.mapping entries) = .ok result ↔ ∃ merged results,
      mergedEntries entries = .ok merged ∧ result = .mapping results ∧
        List.Forall₂ (fun entry result => entry.1 = result.1 ∧ merge entry.2 = .ok result.2)
          merged results := by
  have hentry : (fun entry result : Value × Value =>
      (do return (entry.1, ← merge entry.2) : Except MergeError (Value × Value)) = .ok result) =
        fun entry result => entry.1 = result.1 ∧ merge entry.2 = .ok result.2 := by
    funext entry result
    cases merge entry.2 <;> simp [bind, Except.bind, pure, Except.pure, Prod.ext_iff]
  rw [merge, ← hentry]
  split
  · next error he =>
      constructor
      · intro h
        cases h
      · intro h
        obtain ⟨merged, -, hm, -⟩ := h
        rw [he] at hm
        cases hm
  · next merged he =>
      rw [bind_eq_ok_iff]
      constructor
      · intro h
        obtain ⟨results, hr, hm⟩ := h
        cases hm
        exact ⟨merged, results.reverse, he, rfl, mapM_attach_reverse_eq_ok_iff.mp hr⟩
      · intro h
        obtain ⟨_, results, hm, rfl, hr⟩ := h
        obtain rfl : merged = _ := Except.ok.inj (he.symm.trans hm)
        rw [← List.reverse_reverse results] at hr ⊢
        exact ⟨results.reverse, mapM_attach_reverse_eq_ok_iff.mpr hr, rfl⟩

/-- Induction on successful merges. -/
theorem merge_induction {motive : Value → Value → Prop}
    (scalar : ∀ value, motive (.scalar value) (.scalar value))
    (sequence : ∀ items results,
      List.Forall₂ (fun item result => motive item result ∧ merge item = .ok result) items results →
        motive (.sequence items) (.sequence results))
    (mapping : ∀ entries merged results, mergedEntries entries = .ok merged →
      List.Forall₂ (fun entry result => entry.1 = result.1 ∧ motive entry.2 result.2 ∧
        merge entry.2 = .ok result.2) merged results → motive (.mapping entries) (.mapping results))
    (tagged : ∀ name value result, motive value result → merge value = .ok result →
      motive (.tagged name value) (.tagged name result))
    (value : Value) {result : Value} (h : merge value = .ok result) : motive value result := by
  induction hs : sizeOf value using Nat.strongRecOn generalizing value result with
  | _ size ih =>
      subst hs
      cases value with
      | scalar value =>
          rw [merge_scalar] at h
          cases h
          exact scalar value
      | tagged name value =>
          obtain ⟨inner, hi, rfl⟩ := merge_tagged_eq_ok_iff.mp h
          refine tagged name value inner (ih _ ?_ value hi rfl) hi
          rw [Value.tagged.sizeOf_spec]
          omega
      | sequence items =>
          obtain ⟨results, rfl, hr⟩ := merge_sequence_eq_ok_iff.mp h
          have hi : ∀ item ∈ items, ∀ result, merge item = .ok result → motive item result :=
            fun item hm result hr => ih _ (sizeOf_lt_of_mem_items hm) item hr rfl
          refine sequence items results ?_
          refine ((List.forall₂_and_left _ _).mpr ⟨hi, hr⟩).imp fun item result hb => ?_
          exact ⟨hb.1 result hb.2, hb.2⟩
      | mapping entries =>
          obtain ⟨merged, results, hm, rfl, hr⟩ := merge_mapping_eq_ok_iff.mp h
          have he : ∀ entry ∈ merged, ∀ result, merge entry.2 = .ok result →
              motive entry.2 result := by
            intro entry hi result hr
            refine ih _ ?_ entry.2 hr rfl
            have := sizeOf_mergedEntries hm hi
            rw [Value.mapping.sizeOf_spec]
            omega
          refine mapping entries merged results hm ?_
          refine ((List.forall₂_and_left _ _).mpr ⟨he, hr⟩).imp fun entry result hb => ?_
          exact ⟨hb.2.1, hb.1 result.2 hb.2.2, hb.2.2⟩

/-! ## The values that a merge comes to -/

/-- A merge comes to the values inside a value, and in a mapping to the entries that it gains. -/
inductive Visits : Value → Value → Prop
  | self (value) : Visits value value
  | item {items item part} : item ∈ items → Visits item part → Visits (.sequence items) part
  | entry {entries merged entry part} : mergedEntries entries = .ok merged → entry ∈ merged →
      Visits entry.2 part → Visits (.mapping entries) part
  | tagged {name value part} : Visits value part → Visits (.tagged name value) part

theorem contains_of_mem_named {source : Value} {entries : List (Value × Value)}
    (h : entries ∈ named source) : source.Contains (.mapping entries) := by
  cases source with
  | mapping merged =>
      obtain rfl := List.mem_singleton.mp h
      exact .self _
  | sequence items =>
      obtain ⟨item, hi, he⟩ := List.mem_filterMap.mp h
      cases item with
      | mapping merged =>
          cases he
          exact .item hi (.self _)
      | _ => cases he
  | _ => cases h

theorem contains_of_mem_mergedEntries {entries merged : List (Value × Value)}
    {entry : Value × Value} (h : mergedEntries entries = .ok merged) (he : entry ∈ merged) :
    (mapping entries).Contains entry.2 := by
  rcases mergedEntries_cases h with ⟨-, rfl⟩ | ⟨key, source, own, -, -, hp, rfl⟩
  · exact .entry he (.self _)
  · rcases List.mem_append.mp he with he | he
    · exact .entry (hp.mem_iff.mpr (List.mem_cons_of_mem _ he)) (.self _)
    · obtain ⟨entries', hn, he⟩ := List.mem_flatten.mp ((gained_sublist _ _).subset he)
      have hs : (mapping entries).Contains source :=
        .entry (hp.mem_iff.mpr List.mem_cons_self) (.self _)
      exact (hs.trans (contains_of_mem_named hn)).trans (.entry he (.self _))

/-- A merge comes to nothing that does not stand in the value. -/
theorem Visits.contains {value part : Value} (h : value.Visits part) : value.Contains part := by
  induction h with
  | self value => exact .self value
  | item hi _ ih => exact .item hi ih
  | entry hm he _ ih => exact (contains_of_mem_mergedEntries hm he).trans ih
  | tagged _ ih => exact .tagged ih

theorem exists_of_forall₂_left {α β : Type} {r : α → β → Prop} {items : List α} {results : List β}
    (h : List.Forall₂ r items results) {item : α} (hi : item ∈ items) :
    ∃ result ∈ results, r item result := by
  induction h with
  | nil => cases hi
  | @cons first result rest results hr _ ih =>
      rcases List.mem_cons.mp hi with rfl | hi
      · exact ⟨result, List.mem_cons_self, hr⟩
      · obtain ⟨other, ho, hr⟩ := ih hi
        exact ⟨other, List.mem_cons_of_mem _ ho, hr⟩

theorem exists_of_forall₂_right {α β : Type} {r : α → β → Prop} {items : List α}
    {results : List β} (h : List.Forall₂ r items results) {result : β} (hr : result ∈ results) :
    ∃ item ∈ items, r item result :=
  exists_of_forall₂_left h.flip hr

/-- What a merge comes to is merged too, and stands in the result. -/
theorem Visits.exists_merge {value part result : Value} (hv : value.Visits part)
    (h : merge value = .ok result) :
    ∃ merged, merge part = .ok merged ∧ result.Contains merged := by
  induction hv generalizing result with
  | self value => exact ⟨result, h, .self result⟩
  | item hi _ ih =>
      obtain ⟨results, rfl, hr⟩ := merge_sequence_eq_ok_iff.mp h
      obtain ⟨result, hm, hr⟩ := exists_of_forall₂_left hr hi
      obtain ⟨merged, hp, hc⟩ := ih hr
      exact ⟨merged, hp, .item hm hc⟩
  | entry hm he _ ih =>
      obtain ⟨_, results, hm', rfl, hr⟩ := merge_mapping_eq_ok_iff.mp h
      obtain rfl := Except.ok.inj (hm.symm.trans hm')
      obtain ⟨result, hm, -, hr⟩ := exists_of_forall₂_left hr he
      obtain ⟨merged, hp, hc⟩ := ih hr
      exact ⟨merged, hp, .entry hm hc⟩
  | tagged _ ih =>
      obtain ⟨inner, hi, rfl⟩ := merge_tagged_eq_ok_iff.mp h
      obtain ⟨merged, hp, hc⟩ := ih hi
      exact ⟨merged, hp, .tagged hc⟩

/-- Everything in the result is what became of a value that the merge came to. -/
theorem exists_visits {value result : Value} (h : merge value = .ok result) :
    ∀ part, result.Contains part → ∃ origin, value.Visits origin ∧ merge origin = .ok part := by
  refine merge_induction (motive := fun value result => ∀ part, result.Contains part →
    ∃ origin, value.Visits origin ∧ merge origin = .ok part) ?_ ?_ ?_ ?_ value h
  · intro value part hc
    cases hc
    exact ⟨_, .self _, merge_scalar value⟩
  · intro items results hr part hc
    cases hc with
    | self =>
        refine ⟨_, .self _, merge_sequence_eq_ok_iff.mpr ⟨results, rfl, ?_⟩⟩
        exact hr.imp fun _ _ h => h.2
    | item hm hc =>
        obtain ⟨item, hi, ih, -⟩ := exists_of_forall₂_right hr hm
        obtain ⟨origin, hv, ho⟩ := ih part hc
        exact ⟨origin, .item hi hv, ho⟩
  · intro entries merged results hm hr part hc
    cases hc with
    | self =>
        refine ⟨_, .self _, merge_mapping_eq_ok_iff.mpr ⟨merged, results, hm, rfl, ?_⟩⟩
        exact hr.imp fun _ _ h => ⟨h.1, h.2.2⟩
    | entry he hc =>
        obtain ⟨entry, hi, -, ih, -⟩ := exists_of_forall₂_right hr he
        obtain ⟨origin, hv, ho⟩ := ih part hc
        exact ⟨origin, .entry hm hi hv, ho⟩
  · intro name value result ih hr part hc
    cases hc with
    | self => exact ⟨_, .self _, merge_tagged_eq_ok_iff.mpr ⟨result, hr, rfl⟩⟩
    | tagged hc =>
        obtain ⟨origin, hv, ho⟩ := ih part hc
        exact ⟨origin, .tagged hv, ho⟩

end ApiLint.Yaml.Value
