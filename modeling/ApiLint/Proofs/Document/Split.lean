import ApiLint.Proofs.Document.Listing
import ApiLint.Proofs.Entries

/-! An object sorted into the operations and the extensions of a path item. Each entry goes to one
of them by its key alone, so that both keep the order of the object and nothing gets lost. -/

namespace ApiLint.PathItem

/-! ## One entry after the other -/

/-- Puts an entry under its key, with the operations if the key names a method. -/
def put (item : PathItem) (entry : String × Json) : PathItem :=
  match HttpMethod.ofKey? entry.1 with
  | some method =>
    { item with operations := Entries.put item.operations entry.1 (.ofJson method entry.2) }
  | none => { item with extensions := Entries.put item.extensions entry.1 entry.2 }

variable {object : Entries Json}

theorem operations_ofJson (object : Entries Json) :
    (ofJson (.object object)).operations = object.filterMap fun entry =>
      (HttpMethod.ofKey? entry.1).map fun method => (entry.1, .ofJson method entry.2) :=
  rfl

theorem extensions_ofJson (object : Entries Json) :
    (ofJson (.object object)).extensions =
      object.filter fun entry => (HttpMethod.ofKey? entry.1).isNone :=
  rfl

theorem keys_operations_ofJson (object : Entries Json) :
    (ofJson (.object object)).operations.map Prod.fst =
      (object.map Prod.fst).filter fun key => (HttpMethod.ofKey? key).isSome := by
  rw [operations_ofJson, List.map_filterMap, ← List.filterMap_eq_filter, List.filterMap_map]
  refine List.filterMap_congr fun entry _ => ?_
  cases h : HttpMethod.ofKey? entry.1 <;> simp [Option.guard, h]

theorem keys_extensions_ofJson (object : Entries Json) :
    (ofJson (.object object)).extensions.map Prod.fst =
      (object.map Prod.fst).filter fun key => (HttpMethod.ofKey? key).isNone := by
  rw [extensions_ofJson, List.filter_map]
  rfl

/-- A new key at the end of the object leaves what was sorted before as it is. -/
theorem ofJson_append_singleton {entry : String × Json} (h : entry.1 ∉ object.map Prod.fst) :
    ofJson (.object (object ++ [entry])) = (ofJson (.object object)).put entry := by
  have ho : entry.1 ∉ (ofJson (.object object)).operations.map Prod.fst := by
    rw [keys_operations_ofJson]
    exact fun hm => h (List.mem_of_mem_filter hm)
  have he : entry.1 ∉ (ofJson (.object object)).extensions.map Prod.fst := by
    rw [keys_extensions_ofJson]
    exact fun hm => h (List.mem_of_mem_filter hm)
  have hs : ofJson (.object (object ++ [entry])) =
      ⟨(ofJson (.object (object ++ [entry]))).operations,
        (ofJson (.object (object ++ [entry]))).extensions⟩ := rfl
  rw [hs, operations_ofJson, extensions_ofJson, List.filterMap_append, List.filter_append, put]
  cases hk : HttpMethod.ofKey? entry.1 with
  | none =>
      dsimp only
      rw [Entries.put_of_not_mem he]
      simp [hk, operations_ofJson, extensions_ofJson]
  | some method =>
      dsimp only
      rw [Entries.put_of_not_mem ho]
      simp [hk, operations_ofJson, extensions_ofJson]

/-- Where no key comes twice, a path item is read by putting one entry after the other. -/
theorem ofJson_eq_foldl (hn : (object.map Prod.fst).Nodup) :
    ofJson (.object object) = object.foldl put ⟨[], []⟩ := by
  induction object using List.reverseRecOn with
  | nil => rfl
  | append_singleton object entry ih =>
      rw [List.map_append, List.nodup_append] at hn
      have he : entry.1 ∉ object.map Prod.fst := fun hm => hn.2.2 _ hm entry.1 (by simp) rfl
      rw [ofJson_append_singleton he, ih hn.1, List.foldl_append]
      rfl

/-! ## The two parts -/

/-- The entries of an object are sorted by their keys into operations and extensions. -/
structure Splits (object : Entries Json) (item : PathItem) : Prop where
  operations_sublist : (item.operations.map Prod.fst).Sublist (object.map Prod.fst)
  /-- Extensions keep their values. -/
  extensions_sublist : item.extensions.Sublist object
  disjoint : (item.operations.map Prod.fst).Disjoint (item.extensions.map Prod.fst)
  perm : (item.operations.map Prod.fst ++ item.extensions.map Prod.fst).Perm
    (object.map Prod.fst)
  mem_operations_iff : ∀ key ∈ object.map Prod.fst, key ∈ item.operations.map Prod.fst ↔
    asciiLower key ∈ HttpMethod.all.map HttpMethod.token
  token_method : ∀ entry ∈ item.operations, entry.2.method.token = asciiLower entry.1
  /-- Each spelling of a token has an operation of its own. -/
  keys_method : ∀ method, (item.operations.filter (·.2.method = method)).map Prod.fst =
    (object.map Prod.fst).filter (asciiLower · = method.token)

theorem isSome_ofKey?_iff {key : String} :
    (HttpMethod.ofKey? key).isSome ↔ asciiLower key ∈ HttpMethod.all.map HttpMethod.token := by
  rw [Option.isSome_iff_exists, List.mem_map]
  refine exists_congr fun method => ?_
  rw [HttpMethod.ofKey?_eq_some_iff, and_iff_right method.mem_all]
  exact eq_comm

theorem keys_method_ofJson (object : Entries Json) (method : HttpMethod) :
    ((ofJson (.object object)).operations.filter (·.2.method = method)).map Prod.fst =
      (object.map Prod.fst).filter (asciiLower · = method.token) := by
  rw [operations_ofJson, List.filter_filterMap, List.map_filterMap, ← List.filterMap_eq_filter,
    List.filterMap_map]
  refine List.filterMap_congr fun entry _ => ?_
  have hm : asciiLower entry.1 = method.token ↔ HttpMethod.ofKey? entry.1 = some method :=
    HttpMethod.ofKey?_eq_some_iff.symm
  cases hk : HttpMethod.ofKey? entry.1 with
  | none => simp [Option.guard, hm, hk]
  | some other => by_cases ho : other = method <;> simp [Option.guard, hm, hk, ho]

theorem splits_ofJson (object : Entries Json) : Splits object (ofJson (.object object)) := by
  constructor
  · rw [keys_operations_ofJson]
    exact List.filter_sublist
  · exact List.filter_sublist
  · rw [keys_operations_ofJson, keys_extensions_ofJson]
    intro key ho he
    have hs := (List.mem_filter.mp ho).2
    have hn := (List.mem_filter.mp he).2
    rw [Option.isNone_iff_eq_none.mp hn] at hs
    cases hs
  · rw [keys_operations_ofJson, keys_extensions_ofJson]
    simpa only [Option.not_isSome] using List.filter_append_perm
      (fun key => (HttpMethod.ofKey? key).isSome) (object.map Prod.fst)
  · intro key hk
    rw [keys_operations_ofJson, List.mem_filter, isSome_ofKey?_iff]
    exact and_iff_right hk
  · rintro ⟨key, operation⟩ ho
    obtain ⟨_, method, _, _, _, hm, rfl⟩ := mem_operations_ofJson_iff.mp ho
    exact hm.symm
  · exact keys_method_ofJson object

/-- A path item is its object, each entry put where its key belongs; nothing is lost, and what is no
object has no entries. -/
theorem ofJson_without_loss (value : Json) :
    (∀ object, value = .object object → (object.map Prod.fst).Nodup →
        ofJson value = object.foldl put ⟨[], []⟩ ∧ Splits object (ofJson value)) ∧
      (value.entries? = none → ofJson value = ⟨[], []⟩) := by
  constructor
  · rintro object rfl hn
    exact ⟨ofJson_eq_foldl hn, splits_ofJson object⟩
  · intro h
    cases value with
    | object => cases h
    | _ => rfl

/-- A method in two spellings, between keys that only look like methods. -/
def spelledMethods : Entries Json :=
  [("x-get", .null), ("GET", .object []), ("gets", .bool true), ("get", .object []),
    ("parameters", .array [])]

theorem ofJson_without_loss_spelledMethods :
    (spelledMethods.map Prod.fst).Nodup ∧
      ofJson (.object spelledMethods) = spelledMethods.foldl put ⟨[], []⟩ ∧
      Splits spelledMethods (ofJson (.object spelledMethods)) ∧
      ((ofJson (.object spelledMethods)).operations.filter (·.2.method = .get)).map Prod.fst =
        ["GET", "get"] ∧
      (Json.string "get").entries? = none ∧ ofJson (.string "get") = ⟨[], []⟩ := by
  have hn : (spelledMethods.map Prod.fst).Nodup := by decide
  obtain ⟨hf, hs⟩ := (ofJson_without_loss (.object spelledMethods)).1 _ rfl hn
  have hg : (spelledMethods.map Prod.fst).filter (asciiLower · = HttpMethod.get.token) =
      ["GET", "get"] := by decide +kernel
  have hk := (hs.keys_method .get).trans hg
  exact ⟨hn, hf, hs, hk, rfl, (ofJson_without_loss (.string "get")).2 rfl⟩

end ApiLint.PathItem
