import ApiLint.Proofs.Document.Split
import ApiLint.Proofs.Json.Related
import ApiLint.Proofs.Report.Tally
import ApiLint.Proofs.Yaml.Order

/-! Findings at a path item come operation by operation. The own operations of a path item with a
merge key keep the order in which they are written as long as at most one entry stands behind the
merge key. -/

namespace ApiLint

namespace PathItem

/-- What is found at the operation under a key of a path item. -/
def findingsAt (item : PathItem) (options : Options) (path : String) (severity : Severity)
    (key : String) : List Diagnostic :=
  match item.operations.lookup key with
  | none => []
  | some operation => (checkOperation options path key operation {}).ofSeverity severity

variable {item : PathItem} (options : Options) (path : String) (severity : Severity)

theorem ofSeverity_checkPathItem (hn : (item.operations.map Prod.fst).Nodup) :
    ∃ first, (checkPathItem options path item {}).ofSeverity severity =
      first ++ (item.operations.map Prod.fst).flatMap (item.findingsAt options path severity) := by
  have ho : item.operations.flatMap (fun entry =>
      (checkOperation options path entry.1 entry.2 {}).ofSeverity severity) =
        (item.operations.map Prod.fst).flatMap (item.findingsAt options path severity) := by
    rw [List.flatMap_map]
    refine List.flatMap_congr fun entry he => ?_
    rw [findingsAt, Entries.lookup_of_mem hn he]
  rw [← ho, checkPathItem]
  exact ⟨_, Appends.ofSeverity_foldl (fun _ => appends_checkOperation options _ _ _) _ _ _⟩

/-- Operations in their order have their findings in that order. -/
theorem findingsAt_sublist {keys : List String} (hn : (item.operations.map Prod.fst).Nodup)
    (hk : keys.Sublist (item.operations.map Prod.fst)) :
    (keys.flatMap (item.findingsAt options path severity)).Sublist
      ((checkPathItem options path item {}).ofSeverity severity) := by
  obtain ⟨first, hf⟩ := ofSeverity_checkPathItem options path severity hn
  rw [hf]
  exact (hk.flatMap _).trans (List.sublist_append_right _ _)

end PathItem

namespace Yaml.Value

/-- The keys of a mapping's own operations, as written. -/
def ownOperationKeys (entries : List (Value × Value)) : List String :=
  (ownTexts entries).filter fun key => (HttpMethod.ofKey? key).isSome

/-- The own entries of a mapping keep their order exactly if at most one of them stands behind the
merge key. Then the own operations of a path item have their findings in that order too. -/
theorem own_entries_in_order {tree result : Value} (h : merge tree = .ok result)
    {entries : List (Value × Value)} (hv : tree.Visits (.mapping entries))
    (hn : (texts entries).Nodup) :
    ∃ members object, merge (.mapping entries) = .ok members ∧ result.Contains members ∧
      members.toJson = .object object ∧
      ((ownTexts entries).Sublist (object.map Prod.fst) ↔ (behindMergeKey entries).length ≤ 1) ∧
      ((behindMergeKey entries).length ≤ 1 → ∀ options path severity,
        ((ownOperationKeys entries).flatMap
          ((PathItem.ofJson members.toJson).findingsAt options path severity)).Sublist
            ((checkPathItem options path (.ofJson members.toJson) {}).ofSeverity severity)) := by
  obtain ⟨_, hm, hc⟩ := hv.exists_merge h
  obtain ⟨merged, results, hi, rfl, hr⟩ := merge_mapping_eq_ok_iff.mp hm
  have hkeys : (pairsToJson results).map Prod.fst = texts merged := by
    rw [pairsToJson_eq_map, List.map_map]
    exact (map_eq_map_of_forall₂ hr fun _ _ _ h => congrArg keyText h.1).symm
  have ho := ownTexts_sublist_iff hn hi hkeys
  refine ⟨_, _, hm, hc, rfl, ho, fun hb options path severity => ?_⟩
  have hoperations := PathItem.keys_operations_ofJson (Entries.ofPairs (pairsToJson results))
  refine PathItem.findingsAt_sublist options path severity ?_ ?_
  · rw [toJson, hoperations]
    exact (Entries.nodup_keys_ofPairs _).filter _
  · rw [toJson, hoperations]
    exact (ho.mpr hb).filter _

/-- What operations may share. -/
def sharedParameters : Value × Value :=
  (.string mergeKey, .mapping [(.string "parameters", .sequence [])])

def bareOperation (key : String) : Value × Value := (.string key, .mapping [])

theorem merge_mapping_nil : merge (.mapping []) = .ok (.mapping []) :=
  merge_mapping_eq_ok_iff.mpr ⟨[], [], rfl, rfl, .nil⟩

theorem own_entries_in_order_mergeBetween :
    (texts [bareOperation "get", sharedParameters, bareOperation "post"]).Nodup ∧
      ∃ members object,
        merge (.mapping [bareOperation "get", sharedParameters, bareOperation "post"]) =
          .ok members ∧
        members.toJson = .object object ∧ ["get", "post"].Sublist (object.map Prod.fst) := by
  have hn : (texts [bareOperation "get", sharedParameters, bareOperation "post"]).Nodup := by
    decide +kernel
  have hm : merge (.mapping [bareOperation "get", sharedParameters, bareOperation "post"]) =
      .ok (.mapping [bareOperation "get", bareOperation "post",
        (.string "parameters", .sequence [])]) :=
    merge_mapping_eq_ok_iff.mpr ⟨_, _, rfl, rfl, .cons ⟨rfl, merge_mapping_nil⟩
      (.cons ⟨rfl, merge_mapping_nil⟩
        (.cons ⟨rfl, merge_sequence_eq_ok_iff.mpr ⟨[], rfl, .nil⟩⟩ .nil))⟩
  obtain ⟨members, object, hm, -, ho, hs, -⟩ := own_entries_in_order hm (.self _) hn
  exact ⟨hn, members, object, hm, ho, hs.mpr (by decide)⟩

/-- With two operations behind the merge key, the second one comes first, and so do its findings. -/
theorem own_entries_mergeFirst :
    (texts [sharedParameters, bareOperation "get", bareOperation "post"]).Nodup ∧
      ownTexts [sharedParameters, bareOperation "get", bareOperation "post"] = ["get", "post"] ∧
      ∃ members object,
        merge (.mapping [sharedParameters, bareOperation "get", bareOperation "post"]) =
          .ok members ∧
        members.toJson = .object object ∧
        object.map Prod.fst = ["post", "get", "parameters"] ∧
        ¬["get", "post"].Sublist (object.map Prod.fst) ∧
        (checkPathItem ⟨64⟩ "/pets" (.ofJson members.toJson) {}).errors.toList.map
            Diagnostic.message =
          ["Missing responses for POST /pets", "Missing responses for GET /pets"] := by
  have hm : merge (.mapping [sharedParameters, bareOperation "get", bareOperation "post"]) =
      .ok (.mapping [bareOperation "post", bareOperation "get",
        (.string "parameters", .sequence [])]) :=
    merge_mapping_eq_ok_iff.mpr ⟨_, _, rfl, rfl, .cons ⟨rfl, merge_mapping_nil⟩
      (.cons ⟨rfl, merge_mapping_nil⟩
        (.cons ⟨rfl, merge_sequence_eq_ok_iff.mpr ⟨[], rfl, .nil⟩⟩ .nil))⟩
  refine ⟨by decide +kernel, by decide +kernel, _, _, hm, rfl, ?_, ?_, ?_⟩
  · decide +kernel
  · decide +kernel
  · decide +kernel

end Yaml.Value

end ApiLint
