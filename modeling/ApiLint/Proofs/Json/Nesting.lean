import ApiLint.Json.Parser
import ApiLint.Proofs.Entries
import ApiLint.Proofs.Json

/-! How deeply the arrays and objects of a value are nested. A text that is read with room for some
collections within each other has a value that is nested no deeper than that. -/

namespace ApiLint.Json

mutual

/-- The most arrays and objects that stand within each other. -/
def nesting : Json → Nat
  | .array elements => nestingOfElements elements + 1
  | .object entries => nestingOfEntries entries + 1
  | _ => 0

def nestingOfElements : List Json → Nat
  | [] => 0
  | element :: rest => max (nesting element) (nestingOfElements rest)

def nestingOfEntries : List (String × Json) → Nat
  | [] => 0
  | (_, value) :: rest => max (nesting value) (nestingOfEntries rest)

end

theorem nesting_array_le_iff {elements : List Json} {limit : Nat} :
    (array elements).nesting ≤ limit + 1 ↔ ∀ element ∈ elements, element.nesting ≤ limit := by
  rw [nesting, Nat.add_le_add_iff_right]
  induction elements with
  | nil => simp [nestingOfElements]
  | cons element rest ih => rw [nestingOfElements, Nat.max_le, ih, List.forall_mem_cons]

theorem nesting_object_le_iff {entries : Entries Json} {limit : Nat} :
    (object entries).nesting ≤ limit + 1 ↔ ∀ entry ∈ entries, entry.2.nesting ≤ limit := by
  rw [nesting, Nat.add_le_add_iff_right]
  induction entries with
  | nil => simp [nestingOfEntries]
  | cons entry rest ih => rw [nestingOfEntries, Nat.max_le, ih, List.forall_mem_cons]

theorem nesting_lt_of_mem_elements {elements : List Json} {element : Json}
    (h : element ∈ elements) : element.nesting < (array elements).nesting := by
  have hle : (array elements).nesting ≤ nestingOfElements elements + 1 := Nat.le_refl _
  exact Nat.lt_succ_of_le (nesting_array_le_iff.mp hle element h)

theorem nesting_lt_of_mem_entries {entries : Entries Json} {entry : String × Json}
    (h : entry ∈ entries) : entry.2.nesting < (object entries).nesting := by
  have hle : (object entries).nesting ≤ nestingOfEntries entries + 1 := Nat.le_refl _
  exact Nat.lt_succ_of_le (nesting_object_le_iff.mp hle entry h)

/-- A member is nested less deeply than the object that holds it. -/
theorem nesting_lt_of_get? {value member : Json} {key : String}
    (h : value.get? key = some member) : member.nesting < value.nesting := by
  obtain ⟨entries, he, hl⟩ := Option.bind_eq_some_iff.mp h
  obtain rfl := entries?_eq_some_iff.mp he
  exact nesting_lt_of_mem_entries (mem_of_lookup_eq_some hl)

theorem nesting_ofPairs_le {pairs : List (String × Json)} {limit : Nat}
    (h : ∀ pair ∈ pairs, pair.2.nesting ≤ limit) :
    (object (Entries.ofPairs pairs)).nesting ≤ limit + 1 := by
  refine nesting_object_le_iff.mpr fun entry he => ?_
  have hl := Entries.lookup_of_mem (Entries.nodup_keys_ofPairs pairs) he
  rw [Entries.lookup_ofPairs] at hl
  exact h _ (List.mem_reverse.mp (mem_of_lookup_eq_some hl))

/-! ## Texts -/

theorem Rules.enter?_eq_some {rules inner : Rules} {room : Nat} (hr : rules.room = some room)
    (h : rules.enter? = some inner) : ∃ less, room = less + 1 ∧ inner.room = some less := by
  rw [enter?, hr] at h
  cases room with
  | zero => cases h
  | succ less =>
      cases h
      exact ⟨less, rfl, rfl⟩

/-- What the three readers make of a text with room for `room` collections within each other. -/
structure ReadsWithin (fuel : Nat) (rules : Rules) (room : Nat) : Prop where
  value : ∀ {text value rest}, readValue? fuel rules text = some (value, rest) →
    value.nesting ≤ room
  elements : ∀ {done text value rest}, (∀ element ∈ done, element.nesting ≤ room) →
    readElements? fuel rules done text = some (value, rest) → value.nesting ≤ room + 1
  members : ∀ {done text value rest}, (∀ member ∈ done, member.2.nesting ≤ room) →
    readMembers? fuel rules done text = some (value, rest) → value.nesting ≤ room + 1

theorem readsWithin (fuel : Nat) {rules : Rules} {room : Nat} (hr : rules.room = some room) :
    ReadsWithin fuel rules room := by
  induction fuel generalizing rules room with
  | zero => exact ⟨nofun, nofun, nofun⟩
  | succ fuel ih =>
      refine ⟨?_, ?_, ?_⟩
      · intro text value rest h
        rw [readValue?] at h
        split at h
        · cases h
          exact Nat.zero_le _
        · cases h
          exact Nat.zero_le _
        · cases h
          exact Nat.zero_le _
        · obtain ⟨read, -, h⟩ := Option.bind_eq_some_iff.mp h
          cases h
          exact Nat.zero_le _
        · -- What stands in a collection has one collection less to open.
          obtain ⟨inner, hi, h⟩ := Option.bind_eq_some_iff.mp h
          obtain ⟨less, rfl, hi⟩ := Rules.enter?_eq_some hr hi
          split at h
          · cases h
            exact nesting_array_le_iff.mpr (by simp)
          · exact (ih hi).elements (by simp) h
        · obtain ⟨inner, hi, h⟩ := Option.bind_eq_some_iff.mp h
          obtain ⟨less, rfl, hi⟩ := Rules.enter?_eq_some hr hi
          split at h
          · cases h
            exact nesting_object_le_iff.mpr (by simp)
          · exact (ih hi).members (by simp) h
        · obtain ⟨⟨literal, after⟩, -, h⟩ := Option.bind_eq_some_iff.mp h
          dsimp only at h
          split at h
          · cases h
            exact Nat.zero_le _
          · split at h
            · cases h
            · cases h
              exact Nat.zero_le _
      · intro done text value rest hd h
        obtain ⟨⟨first, after⟩, he, h⟩ := Option.bind_eq_some_iff.mp h
        have hn : ∀ element ∈ first :: done, element.nesting ≤ room :=
          List.forall_mem_cons.mpr ⟨(ih hr).value he, hd⟩
        dsimp only at h
        split at h
        · exact (ih hr).elements hn h
        · cases h
          exact nesting_array_le_iff.mpr fun element hm => hn element (List.mem_reverse.mp hm)
        · cases h
      · intro done text value rest hd h
        obtain ⟨⟨key, _⟩, -, h⟩ := Option.bind_eq_some_iff.mp h
        obtain ⟨⟨first, after⟩, he, h⟩ := Option.bind_eq_some_iff.mp h
        have hn : ∀ member ∈ (key, first) :: done, member.2.nesting ≤ room :=
          List.forall_mem_cons.mpr ⟨(ih hr).value he, hd⟩
        dsimp only at h
        split at h
        · exact (ih hr).members hn h
        · cases h
          exact nesting_ofPairs_le fun member hm => hn member (List.mem_reverse.mp hm)
        · cases h

/-- Arrays and objects nest no deeper in a text than the bound allows. -/
theorem nesting_le_of_parse? {text : String} {value : Json} (h : parse? text = some value) :
    value.nesting ≤ greatestNesting := by
  rw [parse?] at h
  split at h
  · rename_i read rest hr
    split at h
    · cases h
      exact (readsWithin _ rfl).value hr
    · cases h
  · cases h

end ApiLint.Json
