import ApiLint.Proofs.Document.Reading

/-! The operations and component schemas of a value as lists, in the order of its entries. What is
read from the value has the same items in the same order. -/

namespace ApiLint

namespace HttpMethod

instance (method : HttpMethod) (key : String) : Decidable (method.Names key) :=
  inferInstanceAs (Decidable (_ = _))

theorem Names.unique {method other : HttpMethod} {key : String} (h : method.Names key)
    (ho : other.Names key) : method = other :=
  Option.some.inj ((ofKey?_eq_some_iff.mpr h).symm.trans (ofKey?_eq_some_iff.mpr ho))

theorem any_names_iff {key : String} :
    (all.any fun method => method.Names key) ↔ ∃ method : HttpMethod, method.Names key := by
  rw [List.any_eq_true]
  constructor
  · intro h
    obtain ⟨method, -, hn⟩ := h
    exact ⟨method, of_decide_eq_true hn⟩
  · intro h
    obtain ⟨method, hn⟩ := h
    exact ⟨method, method.mem_all, decide_eq_true hn⟩

end HttpMethod

/-- An entry of a path item that holds an operation. -/
structure OperationEntry where
  path : String
  key : String
  operation : Json

namespace Json

/-- The entries of the object under a key; none if there is no object. -/
def membersAt (value : Json) (key : String) : Entries Json :=
  ((value.get? key).bind entries?).getD []

/-- The elements of the array under a key; none if there is no array. -/
def elementsAt (value : Json) (key : String) : List Json :=
  ((value.get? key).bind elements?).getD []

/-- The entries of a path item whose keys name methods. -/
def operationEntriesOf (path : String) (item : Json) : List OperationEntry :=
  ((item.entries?.getD []).filter fun entry =>
    HttpMethod.all.any fun method => method.Names entry.1).map fun entry =>
      ⟨path, entry.1, entry.2⟩

/-- The entries that hold operations, path item by path item. -/
def operationEntries (value : Json) : List OperationEntry :=
  (value.membersAt "paths").flatMap fun member => operationEntriesOf member.1 member.2

/-- The entries of the component schemas, whether they are schemas or not. -/
def componentEntries (value : Json) : Entries Json :=
  ((value.get? "components").map fun components => components.membersAt "schemas").getD []

theorem mem_membersAt_iff {value member : Json} {key name : String} :
    (name, member) ∈ value.membersAt key ↔ ∃ members,
      value.get? key = some (.object members) ∧ (name, member) ∈ members := by
  simp only [membersAt, mem_getD_nil_iff, Option.bind_eq_some_iff, entries?_eq_some_iff]
  constructor
  · intro h
    obtain ⟨members, ⟨_, hv, rfl⟩, hm⟩ := h
    exact ⟨members, hv, hm⟩
  · intro h
    obtain ⟨members, hv, hm⟩ := h
    exact ⟨members, ⟨_, hv, rfl⟩, hm⟩

theorem mem_operationEntriesOf_iff {path : String} {item : Json} {entry : OperationEntry} :
    entry ∈ operationEntriesOf path item ↔ entry.path = path ∧ ∃ entries method,
      item = .object entries ∧ (entry.key, entry.operation) ∈ entries ∧
        HttpMethod.Names method entry.key := by
  simp only [operationEntriesOf, List.mem_map, List.mem_filter, mem_getD_nil_iff,
    entries?_eq_some_iff, HttpMethod.any_names_iff]
  constructor
  · intro h
    obtain ⟨⟨key, operation⟩, ⟨⟨entries, he, hm⟩, method, hn⟩, rfl⟩ := h
    exact ⟨rfl, entries, method, he, hm, hn⟩
  · intro h
    obtain ⟨rfl, entries, method, he, hm, hn⟩ := h
    exact ⟨(entry.key, entry.operation), ⟨⟨entries, he, hm⟩, method, hn⟩, rfl⟩

theorem mem_operationEntries_iff {value : Json} {entry : OperationEntry} :
    entry ∈ value.operationEntries ↔
      ∃ method, value.HasOperation entry.path entry.key method entry.operation := by
  simp only [operationEntries, List.mem_flatMap, mem_operationEntriesOf_iff]
  constructor
  · intro h
    obtain ⟨⟨path, item⟩, hp, rfl, entries, method, rfl, he, hn⟩ := h
    obtain ⟨paths, hv, hp⟩ := mem_membersAt_iff.mp hp
    exact ⟨method, .intro hv hp he hn⟩
  · intro h
    obtain ⟨method, hv, hp, he, hn⟩ := h
    exact ⟨(entry.path, _), mem_membersAt_iff.mpr ⟨_, hv, hp⟩, rfl, _, method, rfl, he, hn⟩

/-- The method of an operation is the one that its key names. -/
theorem hasOperation_iff {value : Json} {method : HttpMethod} {entry : OperationEntry} :
    value.HasOperation entry.path entry.key method entry.operation ↔
      entry ∈ value.operationEntries ∧ method.Names entry.key := by
  constructor
  · intro h
    refine ⟨mem_operationEntries_iff.mpr ⟨method, h⟩, ?_⟩
    obtain ⟨-, -, -, hn⟩ := h
    exact hn
  · intro h
    obtain ⟨other, ho⟩ := mem_operationEntries_iff.mp h.1
    obtain ⟨hv, hp, he, -⟩ := ho
    exact .intro hv hp he h.2

theorem entriesUnder_eq_map {α : Type} (value : Json) (key : String) (read : Json → α) :
    (value.entriesUnder? key read).getD [] =
      (value.membersAt key).map fun member => (member.1, read member.2) := by
  rw [entriesUnder?, membersAt]
  cases (value.get? key).bind entries? with
  | none => rfl
  | some members => rfl

end Json

/-! ## What is read -/

section

variable {β : Type}

theorem PathItem.map_operations_ofJson {f : Operation → β} {g : OperationEntry → β} {path : String}
    (h : ∀ method key operation, method.Names key →
      f (.ofJson method operation) = g ⟨path, key, operation⟩) (item : Json) :
    (PathItem.ofJson item).operations.map (fun entry => f entry.2) =
      (Json.operationEntriesOf path item).map g := by
  rw [PathItem.ofJson, PathItem.ofJson.entries, Json.operationEntriesOf, List.map_filterMap,
    List.map_map, ← List.filterMap_eq_map, List.filterMap_filter]
  refine List.filterMap_congr fun entry _ => ?_
  obtain ⟨key, operation⟩ := entry
  dsimp only
  cases hk : HttpMethod.ofKey? key with
  | none =>
      have hn : ¬(HttpMethod.all.any fun method => method.Names key) := by
        rw [HttpMethod.any_names_iff]
        rintro ⟨method, hn⟩
        rw [HttpMethod.ofKey?_eq_some_iff.mpr hn] at hk
        cases hk
      rw [if_neg hn]
      rfl
  | some method =>
      have hn := HttpMethod.ofKey?_eq_some_iff.mp hk
      rw [if_pos (HttpMethod.any_names_iff.mpr ⟨method, hn⟩)]
      exact congrArg some (h method key operation hn)

namespace Document

/-- The operations are the values under keys that name methods, in their order. -/
theorem map_operations_ofJson {f : Operation → β} {g : OperationEntry → β}
    (h : ∀ method path key operation, method.Names key →
      f (.ofJson method operation) = g ⟨path, key, operation⟩) (value : Json) :
    (ofJson value).operations.map f = value.operationEntries.map g := by
  rw [operations, pathItems_ofJson, Json.entriesUnder_eq_map, Json.operationEntries,
    List.flatMap_map, List.map_flatMap, List.map_flatMap]
  refine List.flatMap_congr fun member _ => ?_
  rw [List.map_map]
  exact PathItem.map_operations_ofJson (fun method key operation =>
    h method member.1 key operation) member.2

theorem length_componentSchemas_ofJson (value : Json) :
    (ofJson value).componentSchemas.length = value.componentEntries.length := by
  rw [componentSchemas_ofJson, Json.componentEntries]
  cases value.get? "components" with
  | none => rfl
  | some components =>
      rw [Option.bind_some, Json.entriesUnder_eq_map, List.length_map]
      rfl

end Document

end

end ApiLint
