import ApiLint.Proofs.Entries
import ApiLint.Proofs.Yaml.Merge
import ApiLint.Yaml.ToJson

/-! The order of a mapping after its merge. The last entry takes the place of the merge key, so the
own entries keep their order only where at most one of them stands behind the merge key. -/

namespace ApiLint.Yaml.Value

/-! ## The last item put first -/

section

variable {α β : Type}

def lastFirst (items : List α) : List α := items.getLast?.toList ++ items.dropLast

theorem lastFirst_append_singleton (items : List α) (last : α) :
    lastFirst (items ++ [last]) = last :: items := by
  simp [lastFirst]

theorem map_lastFirst (f : α → β) (items : List α) :
    (lastFirst items).map f = lastFirst (items.map f) := by
  simp only [lastFirst, List.map_append, List.map_dropLast, List.getLast?_map]
  cases items.getLast? <;> rfl

theorem perm_lastFirst (items : List α) : (lastFirst items).Perm items := by
  induction items using List.reverseRecOn with
  | nil => exact .refl _
  | append_singleton items last _ =>
      rw [lastFirst_append_singleton]
      exact (List.perm_append_singleton last items).symm

theorem lastFirst_eq_self_iff {items : List α} (hn : items.Nodup) :
    lastFirst items = items ↔ items.length ≤ 1 := by
  induction items using List.reverseRecOn with
  | nil => simp [lastFirst]
  | append_singleton items last _ =>
      rw [lastFirst_append_singleton]
      cases items with
      | nil => simp
      | cons first rest =>
          have hne : last ≠ first := by
            rintro rfl
            simp at hn
          simp [hne]

end

/-! ## The own entries of a mapping -/

def aheadOfMergeKey (entries : List (Value × Value)) : List (Value × Value) :=
  entries.takeWhile fun entry => !isMergeKey entry.1

/-- The entries behind the merge key; none if there is no merge key. -/
def behindMergeKey (entries : List (Value × Value)) : List (Value × Value) :=
  (entries.dropWhile fun entry => !isMergeKey entry.1).tail

/-- The texts under which entries stand. -/
def texts (entries : List (Value × Value)) : List String :=
  entries.map fun entry => entry.1.keyText

/-- The texts under which the own entries of a mapping stand, as written. -/
def ownTexts (entries : List (Value × Value)) : List String :=
  texts (entries.filter fun entry => !isMergeKey entry.1)

/-- The own entries of a mapping as its merge leaves them. -/
def remaining (entries : List (Value × Value)) : List (Value × Value) :=
  aheadOfMergeKey entries ++ lastFirst (behindMergeKey entries)

theorem aheadOfMergeKey_cons (entry : Value × Value) (rest : List (Value × Value)) :
    aheadOfMergeKey (entry :: rest) =
      if isMergeKey entry.1 then [] else entry :: aheadOfMergeKey rest := by
  rw [aheadOfMergeKey, List.takeWhile_cons]
  cases isMergeKey entry.1 <;> rfl

theorem behindMergeKey_cons (entry : Value × Value) (rest : List (Value × Value)) :
    behindMergeKey (entry :: rest) =
      if isMergeKey entry.1 then rest else behindMergeKey rest := by
  rw [behindMergeKey, List.dropWhile_cons]
  cases isMergeKey entry.1 <;> rfl

theorem remaining_cons (entry : Value × Value) (rest : List (Value × Value)) :
    remaining (entry :: rest) =
      if isMergeKey entry.1 then lastFirst rest else entry :: remaining rest := by
  rw [remaining, aheadOfMergeKey_cons, behindMergeKey_cons]
  cases isMergeKey entry.1 <;> rfl

theorem remaining_of_noMergeKey {entries : List (Value × Value)} (h : NoMergeKey entries) :
    remaining entries = entries := by
  induction entries with
  | nil => rfl
  | cons entry rest ih =>
      obtain ⟨hk, hr⟩ := List.forall_mem_cons.mp h
      rw [remaining_cons, hk, ih hr]
      rfl

theorem eq_remaining_of_takeMerge? {entries own : List (Value × Value)} {source : Value}
    (h : takeMerge? entries = some (source, own)) : own = remaining entries := by
  induction entries generalizing own with
  | nil => cases h
  | cons entry rest ih =>
      rw [takeMerge?] at h
      rw [remaining_cons]
      cases hk : isMergeKey entry.1 with
      | true =>
          rw [if_pos hk] at h
          cases hl : rest.getLast? with
          | none =>
              rw [hl] at h
              obtain ⟨-, rfl⟩ := Prod.mk.inj (Option.some.inj h)
              rw [List.getLast?_eq_none_iff.mp hl]
              rfl
          | some last =>
              rw [hl] at h
              obtain ⟨-, rfl⟩ := Prod.mk.inj (Option.some.inj h)
              rw [if_pos rfl, lastFirst, hl]
              rfl
      | false =>
          rw [if_neg (by simp [hk])] at h
          obtain ⟨⟨_, own'⟩, hr, he⟩ := Option.map_eq_some_iff.mp h
          obtain ⟨rfl, rfl⟩ := Prod.mk.inj he
          rw [ih hr]
          rfl

theorem mergedEntries_eq_remaining_append {entries merged : List (Value × Value)}
    (h : mergedEntries entries = .ok merged) : ∃ more, merged = remaining entries ++ more := by
  rcases mergedEntries_cases h with ⟨hn, rfl⟩ | ⟨_, _, own, -, ht, -, rfl⟩
  · exact ⟨[], by rw [remaining_of_noMergeKey hn, List.append_nil]⟩
  · exact ⟨_, by rw [eq_remaining_of_takeMerge? ht]⟩

/-! ## Their order -/

/-- Where no text comes twice, there is one merge key at most. -/
theorem ownTexts_eq {entries : List (Value × Value)} (hn : (texts entries).Nodup) :
    ownTexts entries = texts (aheadOfMergeKey entries) ++ texts (behindMergeKey entries) := by
  induction entries with
  | nil => rfl
  | cons entry rest ih =>
      obtain ⟨he, hr⟩ := List.nodup_cons.mp hn
      rw [aheadOfMergeKey_cons, behindMergeKey_cons, ownTexts, List.filter_cons]
      cases hk : isMergeKey entry.1 with
      | true =>
          -- A second merge key would have the text of the first one.
          have hf : rest.filter (fun entry => !isMergeKey entry.1) = rest := by
            refine List.filter_eq_self.mpr fun other ho => ?_
            rw [Bool.not_eq_true', ← Bool.not_eq_true]
            intro hm
            have hkeys : other.1 = entry.1 :=
              (isMergeKey_iff.mp hm).trans (isMergeKey_iff.mp hk).symm
            exact he (List.mem_map.mpr ⟨other, ho, congrArg keyText hkeys⟩)
          rw [hf]
          rfl
      | false => exact congrArg (entry.1.keyText :: ·) (ih hr)

theorem nodup_ownTexts {entries : List (Value × Value)} (hn : (texts entries).Nodup) :
    (ownTexts entries).Nodup :=
  hn.sublist (List.filter_sublist.map _)

theorem texts_remaining (entries : List (Value × Value)) :
    texts (remaining entries) =
      texts (aheadOfMergeKey entries) ++ lastFirst (texts (behindMergeKey entries)) := by
  rw [texts, remaining, List.map_append, map_lastFirst]
  rfl

theorem texts_remaining_perm {entries : List (Value × Value)} (hn : (texts entries).Nodup) :
    (texts (remaining entries)).Perm (ownTexts entries) := by
  rw [texts_remaining, ownTexts_eq hn]
  exact (perm_lastFirst _).append_left _

theorem texts_remaining_eq_iff {entries : List (Value × Value)} (hn : (texts entries).Nodup) :
    texts (remaining entries) = ownTexts entries ↔ (behindMergeKey entries).length ≤ 1 := by
  have hb : (texts (behindMergeKey entries)).Nodup := by
    have h := nodup_ownTexts hn
    rw [ownTexts_eq hn] at h
    exact h.of_append_right
  rw [texts_remaining, ownTexts_eq hn, List.append_cancel_left_eq, lastFirst_eq_self_iff hb, texts,
    List.length_map]

/-- Some items stand in their order before others exactly if they are the same list, where the
others are none of them. -/
theorem sublist_append_iff_of_perm {items others more : List String} (hp : others.Perm items)
    (hd : ∀ item ∈ more, item ∉ others) :
    items.Sublist (others ++ more) ↔ others = items := by
  constructor
  · intro h
    -- Keeping only the items drops all of `more` and nothing of `others`.
    have hf := h.filter (· ∈ items)
    have hi : items.filter (· ∈ items) = items :=
      List.filter_eq_self.mpr fun _ h => by simpa using h
    have ho : others.filter (· ∈ items) = others :=
      List.filter_eq_self.mpr fun item h => by simpa using hp.mem_iff.mp h
    have hm : more.filter (· ∈ items) = [] :=
      List.filter_eq_nil_iff.mpr fun item h => by simpa [hp.mem_iff] using hd item h
    rw [List.filter_append, hi, ho, hm, List.append_nil] at hf
    exact (hf.eq_of_length hp.length_eq.symm).symm
  · rintro rfl
    exact List.sublist_append_left _ _

/-- The own entries keep their order in the object of a merged mapping exactly if at most one of
them stands behind the merge key. -/
theorem ownTexts_sublist_iff {entries merged : List (Value × Value)} {pairs : Entries Json}
    (hn : (texts entries).Nodup) (hm : mergedEntries entries = .ok merged)
    (hp : pairs.map Prod.fst = texts merged) :
    (ownTexts entries).Sublist ((Entries.ofPairs pairs).map Prod.fst) ↔
      (behindMergeKey entries).length ≤ 1 := by
  obtain ⟨more, rfl⟩ := mergedEntries_eq_remaining_append hm
  rw [texts, List.map_append] at hp
  obtain ⟨first, second, rfl, hf, -⟩ := List.map_eq_append_iff.mp hp
  have hperm := texts_remaining_perm hn
  have hnf : (first.map Prod.fst).Nodup := hf ▸ hperm.nodup_iff.mpr (nodup_ownTexts hn)
  obtain ⟨extra, he, hd⟩ := Entries.keys_ofPairs_append hnf second
  rw [he, hf, ← texts_remaining_eq_iff hn]
  exact sublist_append_iff_of_perm hperm (hf ▸ hd)

end ApiLint.Yaml.Value
