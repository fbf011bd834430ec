import ApiLint.Proofs.Document.Listing
import ApiLint.Proofs.Json.Reordering
import ApiLint.Proofs.Stats
import Mathlib.Data.Set.Card

/-! The counts are those of what a value holds. Operations are counted by the paths and the keys
that they stand under, codes by the objects that hold them, tags and schemas as they are listed. -/

namespace ApiLint

/-! ## Places of operations -/

def OperationEntry.place (entry : OperationEntry) : String × String := (entry.path, entry.key)

namespace Json

/-- The paths and keys under which operations of a method stand. -/
def placesOf (value : Json) (method : HttpMethod) : Set (String × String) :=
  {place | ∃ operation, value.HasOperation place.1 place.2 method operation}

/-- The paths and keys under which operations stand. -/
def places (value : Json) : Set (String × String) :=
  {place | ∃ method, place ∈ value.placesOf method}

theorem UniqueKeys.nodup_entries {value : Json} (hu : value.UniqueKeys) :
    ((value.entries?.getD []).map Prod.fst).Nodup := by
  cases value with
  | object entries => exact hu.keys
  | _ => exact List.nodup_nil

theorem UniqueKeys.nodup_membersAt {value : Json} (hu : value.UniqueKeys) (key : String) :
    ((value.membersAt key).map Prod.fst).Nodup := by
  rw [membersAt]
  cases hv : value.get? key with
  | none => exact List.nodup_nil
  | some member => exact (hu.get? hv).nodup_entries

theorem nodup_places_operationEntriesOf {item : Json} (hu : item.UniqueKeys) (path : String) :
    ((operationEntriesOf path item).map OperationEntry.place).Nodup := by
  have hp : ((item.entries?.getD []).map fun entry => (path, entry.1)).Nodup := by
    have hinj : Function.Injective fun key : String => (path, key) :=
      fun _ _ h => (Prod.mk.inj h).2
    have hm := hu.nodup_entries.map hinj
    rwa [List.map_map] at hm
  rw [operationEntriesOf, List.map_map]
  exact hp.sublist (List.filter_sublist.map _)

/-- No two operations stand under one key of one path. -/
theorem nodup_places_operationEntries {value : Json} (hu : value.UniqueKeys) :
    (value.operationEntries.map OperationEntry.place).Nodup := by
  have path_eq {path : String} {item : Json} {place : String × String}
      (h : place ∈ (operationEntriesOf path item).map OperationEntry.place) : place.1 = path := by
    obtain ⟨entry, he, rfl⟩ := List.mem_map.mp h
    exact (mem_operationEntriesOf_iff.mp he).1
  rw [operationEntries, List.map_flatMap, List.nodup_flatMap]
  constructor
  · intro member hm
    obtain ⟨paths, hv, hp⟩ := mem_membersAt_iff.mp hm
    exact nodup_places_operationEntriesOf ((hu.get? hv).entry hp) member.1
  · refine (List.pairwise_map.mp (hu.nodup_membersAt "paths")).imp fun hne place hm ho => ?_
    exact hne ((path_eq hm).symm.trans (path_eq ho))

theorem ncard_eq_length {places : Set (String × String)} {listed : List (String × String)}
    (hn : listed.Nodup) (h : ∀ place, place ∈ places ↔ place ∈ listed) :
    places.ncard = listed.length := by
  have hs : places = listed.toFinset := by
    ext place
    rw [h, Finset.mem_coe, List.mem_toFinset]
  rw [hs, Set.ncard_coe_finset, List.toFinset_card_of_nodup hn]

theorem ncard_places {value : Json} (hu : value.UniqueKeys) :
    value.places.ncard = value.operationEntries.length := by
  rw [ncard_eq_length (nodup_places_operationEntries hu) fun place => ?_, List.length_map]
  rw [List.mem_map]
  constructor
  · intro h
    obtain ⟨method, operation, ho⟩ := h
    exact ⟨⟨place.1, place.2, operation⟩, mem_operationEntries_iff.mpr ⟨method, ho⟩, rfl⟩
  · intro h
    obtain ⟨entry, he, rfl⟩ := h
    obtain ⟨method, ho⟩ := mem_operationEntries_iff.mp he
    exact ⟨method, entry.operation, ho⟩

theorem ncard_placesOf {value : Json} (hu : value.UniqueKeys) (method : HttpMethod) :
    (value.placesOf method).ncard =
      value.operationEntries.countP fun entry => method.Names entry.key := by
  have hn := (nodup_places_operationEntries hu).sublist
    ((List.filter_sublist (p := fun entry => method.Names entry.key)).map OperationEntry.place)
  rw [ncard_eq_length hn fun place => ?_, List.length_map, List.countP_eq_length_filter]
  simp only [List.mem_map, List.mem_filter, decide_eq_true_eq, ← hasOperation_iff]
  constructor
  · intro h
    obtain ⟨operation, ho⟩ := h
    exact ⟨⟨place.1, place.2, operation⟩, ho, rfl⟩
  · intro h
    obtain ⟨entry, ho, rfl⟩ := h
    exact ⟨entry.operation, ho⟩

end Json

/-! ## Counts -/

namespace Stats

theorem countMethod_ofJson (value : Json) (method : HttpMethod) :
    countMethod (Document.ofJson value).operations method =
      value.operationEntries.countP fun entry => method.Names entry.key := by
  have hm := Document.map_operations_ofJson (f := fun operation => operation.method == method)
    (g := fun entry => decide (method.Names entry.key)) (fun other path key operation hn => by
      by_cases he : other = method
      · subst he
        simp [hn]
      · have hk : ¬method.Names key := fun h => he (hn.unique h)
        simp [he, hk]) value
  have hc := congrArg (List.countP id) hm
  rwa [List.countP_map, List.countP_map] at hc

theorem mem_responseCodes_ofJson_iff {value : Json} {code : String} :
    code ∈ (ofDocument (.ofJson value)).responseCodes ↔
      ∃ entry ∈ value.operationEntries,
        code ∈ (entry.operation.membersAt "responses").map Prod.fst := by
  have hm := Document.map_operations_ofJson
    (f := fun operation => (operation.responses.getD []).map Prod.fst)
    (g := fun entry => (entry.operation.membersAt "responses").map Prod.fst)
    (fun method path key operation _ => by
      rw [Operation.responses_ofJson, Json.entriesUnder_eq_map, List.map_map]
      rfl) value
  have hr : (ofDocument (.ofJson value)).responseCodes =
      responseCodesOf (Document.ofJson value).operations := rfl
  rw [hr, mem_responseCodesOf_iff, List.flatMap_def, hm, ← List.flatMap_def, List.mem_flatMap]

theorem length_operations_ofJson (value : Json) :
    (Document.ofJson value).operations.length = value.operationEntries.length := by
  have hm := Document.map_operations_ofJson (f := fun _ => ()) (g := fun _ => ())
    (fun _ _ _ _ _ => rfl) value
  simpa only [List.length_map] using congrArg List.length hm

theorem mem_methods_ofJson_iff {value : Json} {method : HttpMethod} :
    method ∈ (ofDocument (.ofJson value)).perMethodCount.map Prod.fst ↔
      (value.placesOf method).Nonempty := by
  rw [mem_methods_iff, countMethod_ofJson, ← Nat.pos_iff_ne_zero, List.countP_pos_iff]
  simp only [decide_eq_true_eq, ← Json.hasOperation_iff]
  constructor
  · intro h
    obtain ⟨entry, ho⟩ := h
    exact ⟨entry.place, entry.operation, ho⟩
  · intro h
    obtain ⟨place, operation, ho⟩ := h
    exact ⟨⟨place.1, place.2, operation⟩, ho⟩

/-- Counts of what a value holds. -/
structure Describes (stats : Stats) (value : Json) : Prop where
  endpointCount_eq : stats.endpointCount = value.operationEntries.length
  /-- One entry for each method of an operation, and no other. -/
  mem_methods_iff : ∀ method, method ∈ stats.perMethodCount.map Prod.fst ↔
    (value.placesOf method).Nonempty
  nodup_methods : (stats.perMethodCount.map Prod.fst).Nodup
  count_eq : ∀ method count, (method, count) ∈ stats.perMethodCount →
    1 ≤ count ∧ count = value.operationEntries.countP fun entry => method.Names entry.key
  sum_counts : (stats.perMethodCount.map Prod.snd).sum = stats.endpointCount
  ascending_codes : stats.responseCodes.Pairwise (· < ·)
  mem_codes_iff : ∀ code, code ∈ stats.responseCodes ↔
    ∃ entry ∈ value.operationEntries,
      code ∈ (entry.operation.membersAt "responses").map Prod.fst
  tagCount_eq : stats.tagCount = (value.elementsAt "tags").length
  schemaCount_eq : stats.schemaCount = value.componentEntries.length

/-- The counts of what is read from a value are those of the value. Where no key comes twice, the
operations are counted by where they stand. -/
theorem ofDocument_describes (value : Json) :
    (ofDocument (.ofJson value)).Describes value ∧
      (value.UniqueKeys →
        (ofDocument (.ofJson value)).endpointCount = value.places.ncard ∧
          ∀ method, (ofDocument (.ofJson value)).methodCount method =
            (value.placesOf method).ncard) := by
  constructor
  · constructor
    case endpointCount_eq => exact length_operations_ofJson value
    case mem_methods_iff => exact fun method => mem_methods_ofJson_iff
    case nodup_methods => exact nodup_methods _
    case count_eq =>
      intro method count hm
      obtain ⟨rfl, hc⟩ := mem_perMethodCount_iff.mp hm
      exact ⟨Nat.pos_of_ne_zero hc, countMethod_ofJson value method⟩
    case sum_counts => exact sum_perMethodCount _
    case ascending_codes => exact pairwise_responseCodesOf _
    case mem_codes_iff => exact fun code => mem_responseCodes_ofJson_iff
    case tagCount_eq => exact List.length_map _
    case schemaCount_eq => exact Document.length_componentSchemas_ofJson value
  · intro hu
    refine ⟨(length_operations_ofJson value).trans (Json.ncard_places hu).symm, fun method => ?_⟩
    rw [methodCount_ofDocument, countMethod_ofJson, Json.ncard_placesOf hu]

/-- One method in two spellings, and an entry that is no path item. -/
def spelledMethods : Json :=
  .object [("paths", .object [
    ("/pets", .object [("get", .null), ("GET", .object [("responses", .object [("404", .null)])]),
      ("summary", .string "Pets")]),
    ("get", .array [])])]

theorem ofDocument_describes_spelledMethods :
    spelledMethods.UniqueKeys ∧ spelledMethods.places.ncard = 2 ∧
      (spelledMethods.placesOf .get).ncard = 2 ∧ (spelledMethods.placesOf .post).ncard = 0 := by
  have hu : spelledMethods.UniqueKeys := by simp [Json.UniqueKeys, spelledMethods]
  obtain ⟨he, hm⟩ := (ofDocument_describes spelledMethods).2 hu
  refine ⟨hu, he.symm.trans ?_, (hm .get).symm.trans ?_, (hm .post).symm.trans ?_⟩
  · decide +kernel
  · decide +kernel
  · decide +kernel

end Stats

end ApiLint
