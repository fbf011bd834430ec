import ApiLint.Yaml.Value

/-! Merge keys. The entry `<<` of a mapping names one mapping or several whose entries the mapping
takes over, except under keys that it has. The last entry of the mapping moves to the place of `<<`.
Entries that are taken over are not searched for a further `<<` among their keys. -/

namespace ApiLint.Yaml

inductive MergeError where
  | scalar
  | tagged
  | scalarInList
  | sequenceInList
deriving DecidableEq, Repr

def MergeError.message : MergeError → String
  | scalar => "expected a mapping or list of mappings for merging, but found scalar"
  | tagged => "unexpected tagged value in merge"
  | scalarInList => "expected a mapping for merging, but found scalar"
  | sequenceInList => "expected a mapping for merging, but found sequence"

namespace Value

def mergeKey : String := "<<"

def isMergeKey : Value → Bool
  | .scalar (.string text) => text == mergeKey
  | _ => false

/-- Takes the first entry with a merge key out, and puts the last entry into its place. -/
def takeMerge? : List (Value × Value) → Option (Value × List (Value × Value))
  | [] => none
  | (key, value) :: rest =>
    if isMergeKey key then
      match rest.getLast? with
      | none => some (value, [])
      | some last => some (value, last :: rest.dropLast)
    else (takeMerge? rest).map fun (found, rest) => (found, (key, value) :: rest)

/-- Appends those entries whose keys are not there yet. -/
def takeOver (own : List (Value × Value)) (merged : List (Value × Value)) :
    List (Value × Value) :=
  merged.foldl (fun entries entry =>
    if hasKey entries entry.1 then entries else entries ++ [entry]) own

/-- Takes over the entries of each mapping in a list. -/
def takeOverEach (own : List (Value × Value)) : List Value →
    Except MergeError (List (Value × Value))
  | [] => .ok own
  | .mapping entries :: rest => takeOverEach (takeOver own entries) rest
  | .sequence _ :: _ => .error .sequenceInList
  | .tagged .. :: _ => .error .tagged
  | .scalar _ :: _ => .error .scalarInList

/-- The entries of a mapping after its own merge, values as they are. -/
def mergedEntries (entries : List (Value × Value)) : Except MergeError (List (Value × Value)) :=
  match takeMerge? entries with
  | none => .ok entries
  | some (.mapping merged, own) => .ok (takeOver own merged)
  | some (.sequence items, own) => takeOverEach own items
  | some (.tagged .., _) => .error .tagged
  | some (.scalar _, _) => .error .scalar

/-! Every value that a merge leaves in a mapping stood somewhere inside that mapping before. -/

theorem sizeOf_of_mem {entry : Value × Value} {entries : List (Value × Value)}
    (h : entry ∈ entries) : sizeOf entry.2 < sizeOf entries := by
  have := List.sizeOf_lt_of_mem h
  obtain ⟨key, value⟩ := entry
  simp only [Prod.mk.sizeOf_spec] at this ⊢
  omega

theorem mem_of_takeMerge? {entries own : List (Value × Value)} {found : Value}
    (h : takeMerge? entries = some (found, own)) :
    (∃ key, (key, found) ∈ entries) ∧ ∀ entry ∈ own, entry ∈ entries := by
  induction entries generalizing own with
  | nil => simp [takeMerge?] at h
  | cons first rest ih =>
    obtain ⟨key, value⟩ := first
    simp only [takeMerge?] at h
    split at h
    · split at h
      · simp only [Option.some.injEq, Prod.mk.injEq] at h
        obtain ⟨rfl, rfl⟩ := h
        exact ⟨⟨key, by simp⟩, by simp⟩
      · next last hl =>
        simp only [Option.some.injEq, Prod.mk.injEq] at h
        obtain ⟨rfl, rfl⟩ := h
        refine ⟨⟨key, by simp⟩, fun entry he => ?_⟩
        rcases List.mem_cons.1 he with rfl | he
        · exact List.mem_cons_of_mem _ (List.mem_of_getLast? hl)
        · exact List.mem_cons_of_mem _ ((List.dropLast_sublist rest).subset he)
    · obtain ⟨⟨v, rest'⟩, hr, he⟩ := Option.map_eq_some_iff.1 h
      simp only [Prod.mk.injEq] at he
      obtain ⟨rfl, rfl⟩ := he
      obtain ⟨⟨k, hk⟩, hs⟩ := ih hr
      refine ⟨⟨k, List.mem_cons_of_mem _ hk⟩, fun entry he => ?_⟩
      rcases List.mem_cons.1 he with rfl | he
      · exact List.mem_cons_self
      · exact List.mem_cons_of_mem _ (hs entry he)

theorem mem_takeOver {entry : Value × Value} {own merged : List (Value × Value)}
    (h : entry ∈ takeOver own merged) : entry ∈ own ∨ entry ∈ merged := by
  induction merged generalizing own with
  | nil => exact .inl h
  | cons first rest ih =>
    rw [takeOver, List.foldl_cons] at h
    split at h
    · exact (ih h).imp_right (List.mem_cons_of_mem _)
    · rcases ih h with h | h
      · rcases List.mem_append.1 h with h | h
        · exact .inl h
        · exact .inr (by simp_all)
      · exact .inr (List.mem_cons_of_mem _ h)

theorem mem_takeOverEach {entry : Value × Value} {own result : List (Value × Value)}
    {items : List Value} (h : takeOverEach own items = .ok result) (he : entry ∈ result) :
    entry ∈ own ∨ ∃ entries, .mapping entries ∈ items ∧ entry ∈ entries := by
  induction items generalizing own with
  | nil => simp_all [takeOverEach]
  | cons first rest ih =>
    cases first with
    | mapping entries =>
      rcases ih h with h | ⟨entries', hm, hs⟩
      · rcases mem_takeOver h with h | h
        · exact .inl h
        · exact .inr ⟨entries, List.mem_cons_self, h⟩
      · exact .inr ⟨entries', List.mem_cons_of_mem _ hm, hs⟩
    | scalar _ => simp [takeOverEach] at h
    | sequence _ => simp [takeOverEach] at h
    | tagged _ _ => simp [takeOverEach] at h

theorem sizeOf_mergedEntries {entries result : List (Value × Value)} {entry : Value × Value}
    (h : mergedEntries entries = .ok result) (he : entry ∈ result) :
    sizeOf entry.2 < sizeOf entries := by
  unfold mergedEntries at h
  split at h
  · cases h
    exact sizeOf_of_mem he
  · next merged own ht =>
    obtain ⟨⟨key, hk⟩, hs⟩ := mem_of_takeMerge? ht
    cases h
    rcases mem_takeOver he with he | he
    · exact sizeOf_of_mem (hs _ he)
    · have h₁ := sizeOf_of_mem he
      have h₂ := sizeOf_of_mem hk
      simp only [mapping.sizeOf_spec] at h₂
      omega
  · next items own ht =>
    obtain ⟨⟨key, hk⟩, hs⟩ := mem_of_takeMerge? ht
    rcases mem_takeOverEach h he with he | ⟨merged, hm, he⟩
    · exact sizeOf_of_mem (hs _ he)
    · have h₁ := sizeOf_of_mem he
      have h₂ := List.sizeOf_lt_of_mem hm
      have h₃ := sizeOf_of_mem hk
      simp only [mapping.sizeOf_spec, sequence.sizeOf_spec] at h₂ h₃
      omega
  · cases h
  · cases h

/-- Carries out all merges in a tree, not looking into keys. Of several errors the one that stands
last in the tree is met, since the last child of a value is visited first. -/
def merge : Value → Except MergeError Value
  | .scalar value => .ok (.scalar value)
  | .tagged name value => (merge value).map (.tagged name)
  | .sequence items => do
    let items ← items.attach.reverse.mapM fun ⟨item, _⟩ => merge item
    return .sequence items.reverse
  | .mapping entries => do
    match _h : mergedEntries entries with
    | .error error => throw error
    | .ok merged =>
      let merged ← merged.attach.reverse.mapM fun ⟨entry, _⟩ => do
        return (entry.1, ← merge entry.2)
      return .mapping merged.reverse
termination_by value => sizeOf value
decreasing_by
  · simp only [tagged.sizeOf_spec]; omega
  · next hm =>
    have := List.sizeOf_lt_of_mem hm
    simp only [sequence.sizeOf_spec]; omega
  · next hm =>
    have := sizeOf_mergedEntries _h hm
    simp only [mapping.sizeOf_spec]; omega

end Value

end ApiLint.Yaml
