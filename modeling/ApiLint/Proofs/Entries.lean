import ApiLint.Json.Basic
import Mathlib.Data.List.Induction
import Mathlib.Data.List.Nodup

/-! Entries put one after the other: the last one under a key gives the value, and where no key
comes twice nothing moves. -/

namespace ApiLint.Entries

variable {α : Type}

theorem lookup_cons (key : String) (entry : String × α) (rest : Entries α) :
    List.lookup key (entry :: rest) = if key = entry.1 then some entry.2 else rest.lookup key := by
  rw [List.lookup_cons]
  by_cases h : key = entry.1
  · rw [if_pos h, beq_iff_eq.mpr h]
  · rw [if_neg h, beq_eq_false_iff_ne.mpr h]

theorem isSome_lookup_iff {entries : Entries α} {key : String} :
    (entries.lookup key).isSome ↔ key ∈ entries.map Prod.fst := by
  simp only [List.lookup_isSome_iff, List.mem_map, beq_iff_eq, eq_comm (a := key)]

/-- Where no key comes twice, every entry is found under its key. -/
theorem lookup_of_mem {entries : Entries α} {entry : String × α}
    (hn : (entries.map Prod.fst).Nodup) (h : entry ∈ entries) :
    entries.lookup entry.1 = some entry.2 := by
  obtain ⟨value, hl⟩ := Option.isSome_iff_exists.mp
    (isSome_lookup_iff.mpr (List.mem_map_of_mem h))
  obtain ⟨before, after, he, -⟩ := List.lookup_eq_some_iff.mp hl
  have hm : (entry.1, value) ∈ entries := he ▸ List.mem_append_right _ List.mem_cons_self
  rw [hl, ← congrArg Prod.snd (List.inj_on_of_nodup_map hn hm h rfl)]

/-- Where no key comes twice, the order of entries is of no matter for a lookup. -/
theorem lookup_of_perm {entries others : Entries α}
    (hn : (entries.map Prod.fst).Nodup) (h : entries.Perm others) (key : String) :
    entries.lookup key = others.lookup key := by
  induction h with
  | nil => rfl
  | cons entry _ ih =>
      rw [List.map_cons, List.nodup_cons] at hn
      rw [lookup_cons, lookup_cons, ih hn.2]
  | swap first second rest =>
      simp only [List.map_cons, List.nodup_cons, List.mem_cons, not_or] at hn
      simp only [lookup_cons]
      split
      · rename_i hs
        rw [if_neg (hs ▸ hn.1.1)]
      · rfl
  | trans hl _ ihl ihr => rw [ihl hn, ihr ((hl.map _).nodup_iff.mp hn)]

theorem lookup_put (entries : Entries α) (key other : String) (value : α) :
    (put entries key value).lookup other =
      if other = key then some value else entries.lookup other := by
  induction entries with
  | nil => exact lookup_cons other (key, value) []
  | cons entry rest ih =>
      obtain ⟨first, old⟩ := entry
      by_cases hf : first = key
      · subst hf
        rw [put, if_pos rfl, lookup_cons, lookup_cons]
        split <;> rfl
      · rw [put, if_neg hf, lookup_cons, lookup_cons, ih]
        by_cases ho : other = first
        · subst ho
          simp only [hf, if_true, if_false]
        · simp only [ho, if_false]

theorem ofPairs_append_singleton (pairs : List (String × α)) (pair : String × α) :
    ofPairs (pairs ++ [pair]) = put (ofPairs pairs) pair.1 pair.2 := by
  rw [ofPairs, List.foldl_append]
  rfl

/-- The last pair under a key gives the value. -/
theorem lookup_ofPairs (pairs : List (String × α)) (key : String) :
    (ofPairs pairs).lookup key = pairs.reverse.lookup key := by
  induction pairs using List.reverseRecOn with
  | nil => rfl
  | append_singleton pairs pair ih =>
      rw [ofPairs_append_singleton, lookup_put, ih, List.reverse_append, List.reverse_singleton,
        List.singleton_append, lookup_cons]

theorem put_of_not_mem {entries : Entries α} {key : String} (h : key ∉ entries.map Prod.fst)
    (value : α) : put entries key value = entries ++ [(key, value)] := by
  induction entries with
  | nil => rfl
  | cons entry rest ih =>
      simp only [List.map_cons, List.mem_cons, not_or] at h
      rw [put, if_neg (Ne.symm h.1), ih h.2]
      rfl

/-- Where no key comes twice, the entries are the pairs. -/
theorem ofPairs_of_nodup {pairs : List (String × α)} (h : (pairs.map Prod.fst).Nodup) :
    ofPairs pairs = pairs := by
  induction pairs using List.reverseRecOn with
  | nil => rfl
  | append_singleton pairs pair ih =>
      rw [List.map_append, List.nodup_append] at h
      have hn : pair.1 ∉ pairs.map Prod.fst := fun hm => h.2.2 _ hm pair.1 (by simp) rfl
      rw [ofPairs_append_singleton, ih h.1, put_of_not_mem hn]

theorem keys_put (entries : Entries α) (key : String) (value : α) :
    (put entries key value).map Prod.fst =
      if key ∈ entries.map Prod.fst then entries.map Prod.fst
      else entries.map Prod.fst ++ [key] := by
  induction entries with
  | nil => rfl
  | cons entry rest ih =>
      obtain ⟨first, old⟩ := entry
      by_cases h : first = key
      · rw [put, if_pos h, if_pos (h ▸ List.mem_cons_self)]
        rfl
      · rw [put, if_neg h, List.map_cons, ih]
        simp only [List.map_cons, List.mem_cons, Ne.symm h, false_or]
        split <;> rfl

theorem nodup_keys_ofPairs (pairs : List (String × α)) :
    ((ofPairs pairs).map Prod.fst).Nodup := by
  induction pairs using List.reverseRecOn with
  | nil => exact List.nodup_nil
  | append_singleton pairs pair ih =>
      rw [ofPairs_append_singleton, keys_put]
      split
      · exact ih
      · rename_i hn
        exact ih.append (List.nodup_singleton _) (List.disjoint_singleton.mpr hn)

/-- The keys stand in the order in which they first occur. -/
theorem keys_ofPairs (pairs : List (String × α)) :
    (ofPairs pairs).map Prod.fst = (pairs.map Prod.fst).eraseDups := by
  induction pairs using List.reverseRecOn with
  | nil => rfl
  | append_singleton pairs pair ih =>
      rw [ofPairs_append_singleton, keys_put, ih, List.map_append, List.map_singleton,
        List.eraseDups_append]
      simp only [List.mem_eraseDups]
      by_cases h : pair.1 ∈ pairs.map Prod.fst
      · simp [List.cons_removeAll, h]
      · simp [List.cons_removeAll, List.eraseDups_cons, h]

/-- Where no key comes twice, entries are told by their keys and what is found under each. -/
theorem eq_of_lookup_eq {entries others : Entries α} (hn : (entries.map Prod.fst).Nodup)
    (hk : entries.map Prod.fst = others.map Prod.fst)
    (hl : ∀ key, entries.lookup key = others.lookup key) : entries = others := by
  have told (entries : Entries α) (hn : (entries.map Prod.fst).Nodup) :
      ((entries.map Prod.fst).filterMap fun key =>
        (entries.lookup key).map fun value => (key, value)) = entries := by
    rw [List.filterMap_map]
    conv_rhs => rw [← List.filterMap_some (l := entries)]
    refine List.filterMap_congr fun entry he => ?_
    rw [Function.comp_apply, lookup_of_mem hn he, Option.map_some]
  rw [← told entries hn, ← told others (hk ▸ hn), hk]
  simp only [hl]

/-- Pairs with keys of their own come first, in their order, whatever is put after them. -/
theorem keys_ofPairs_append {first : List (String × α)} (hn : (first.map Prod.fst).Nodup)
    (second : List (String × α)) :
    ∃ more, (ofPairs (first ++ second)).map Prod.fst = first.map Prod.fst ++ more ∧
      ∀ key ∈ more, key ∉ first.map Prod.fst := by
  induction second using List.reverseRecOn with
  | nil =>
      refine ⟨[], ?_, by simp⟩
      rw [List.append_nil, List.append_nil, ofPairs_of_nodup hn]
  | append_singleton second pair ih =>
      obtain ⟨more, hm, hd⟩ := ih
      rw [← List.append_assoc, ofPairs_append_singleton, keys_put]
      split
      · exact ⟨more, hm, hd⟩
      · rename_i hp
        rw [hm, List.mem_append, not_or] at hp
        refine ⟨more ++ [pair.1], by rw [hm, List.append_assoc], fun key hk => ?_⟩
        rcases List.mem_append.mp hk with hk | hk
        · exact hd key hk
        · exact List.mem_singleton.mp hk ▸ hp.1

end ApiLint.Entries
