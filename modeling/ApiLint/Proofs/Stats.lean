import ApiLint.Stats
import Mathlib.Algebra.BigOperators.Group.List.Basic
import Mathlib.Algebra.GroupWithZero.Nat
import Mathlib.Data.List.Sort
import Mathlib.Data.String.Basic

/-! Response codes are counted once each and in ascending order, so the list is told by what is in
it. The counts of the methods add up to that of all operations. -/

namespace ApiLint.Stats

/-! ## Response codes -/

theorem mem_insertCode_iff {code other : String} {codes : List String} :
    other ∈ insertCode code codes ↔ other = code ∨ other ∈ codes := by
  induction codes with
  | nil => simp [insertCode]
  | cons first rest ih =>
      rw [insertCode]
      split
      · exact List.mem_cons
      · split
        · rename_i he
          simp [he]
        · rw [List.mem_cons, ih, List.mem_cons, or_left_comm]

theorem pairwise_insertCode {codes : List String} (code : String)
    (h : codes.Pairwise (· < ·)) : (insertCode code codes).Pairwise (· < ·) := by
  induction codes with
  | nil => exact List.pairwise_singleton _ _
  | cons first rest ih =>
      obtain ⟨hf, hr⟩ := List.pairwise_cons.mp h
      rw [insertCode]
      split
      · rename_i hlt
        refine List.pairwise_cons.mpr ⟨fun other ho => ?_, h⟩
        rcases List.mem_cons.mp ho with rfl | ho
        · exact hlt
        · exact hlt.trans (hf other ho)
      · split
        · exact h
        · rename_i hlt he
          refine List.pairwise_cons.mpr ⟨fun other ho => ?_, ih hr⟩
          rcases mem_insertCode_iff.mp ho with rfl | ho
          · exact lt_of_le_of_ne (le_of_not_gt hlt) (Ne.symm he)
          · exact hf other ho

theorem mem_foldl_insertCode_iff {other : String} {codes found : List String} :
    other ∈ codes.foldl (fun found code => insertCode code found) found ↔
      other ∈ codes ∨ other ∈ found := by
  induction codes generalizing found with
  | nil => simp
  | cons code rest ih =>
      rw [List.foldl_cons, ih, mem_insertCode_iff, List.mem_cons, or_left_comm, or_assoc]

theorem mem_responseCodesOf_iff {code : String} {operations : List Operation} :
    code ∈ responseCodesOf operations ↔
      code ∈ operations.flatMap fun operation => (operation.responses.getD []).map Prod.fst := by
  rw [responseCodesOf, mem_foldl_insertCode_iff]
  simp only [List.not_mem_nil, or_false]

theorem pairwise_responseCodesOf (operations : List Operation) :
    (responseCodesOf operations).Pairwise (· < ·) := by
  have h (codes found : List String) (hf : found.Pairwise (· < ·)) :
      (codes.foldl (fun found code => insertCode code found) found).Pairwise (· < ·) :=
    List.foldlRecOn codes _ hf fun _ hf code _ => pairwise_insertCode code hf
  exact h _ [] .nil

/-- Operations with the same codes have the same list of codes. -/
theorem responseCodesOf_congr {operations others : List Operation}
    (h : (operations.flatMap fun operation => (operation.responses.getD []).map Prod.fst).Perm
      (others.flatMap fun operation => (operation.responses.getD []).map Prod.fst)) :
    responseCodesOf operations = responseCodesOf others := by
  refine (pairwise_responseCodesOf _).eq_of_mem_iff (pairwise_responseCodesOf _) fun code => ?_
  rw [mem_responseCodesOf_iff, mem_responseCodesOf_iff, h.mem_iff]

/-! ## Methods -/

/-- The methods that occur, each with the number of its operations. -/
theorem perMethodCount_ofDocument (document : Document) :
    (ofDocument document).perMethodCount =
      (HttpMethod.all.filter fun method => countMethod document.operations method ≠ 0).map
        fun method => (method, countMethod document.operations method) := by
  rw [ofDocument]
  induction HttpMethod.all with
  | nil => rfl
  | cons method rest ih =>
      by_cases h : countMethod document.operations method = 0
      · simpa [h] using ih
      · simpa [h] using ih

theorem mem_perMethodCount_iff {document : Document} {method : HttpMethod} {count : Nat} :
    (method, count) ∈ (ofDocument document).perMethodCount ↔
      count = countMethod document.operations method ∧ count ≠ 0 := by
  rw [perMethodCount_ofDocument, List.mem_map]
  constructor
  · intro h
    obtain ⟨_, hm, he⟩ := h
    obtain ⟨rfl, rfl⟩ := Prod.mk.inj he
    exact ⟨rfl, of_decide_eq_true (List.mem_filter.mp hm).2⟩
  · intro h
    obtain ⟨rfl, hc⟩ := h
    exact ⟨method, List.mem_filter.mpr ⟨method.mem_all, decide_eq_true hc⟩, rfl⟩

theorem mem_methods_iff {document : Document} {method : HttpMethod} :
    method ∈ (ofDocument document).perMethodCount.map Prod.fst ↔
      countMethod document.operations method ≠ 0 := by
  rw [List.mem_map]
  constructor
  · intro h
    obtain ⟨⟨_, count⟩, he, rfl⟩ := h
    obtain ⟨rfl, hc⟩ := mem_perMethodCount_iff.mp he
    exact hc
  · intro h
    exact ⟨(method, _), mem_perMethodCount_iff.mpr ⟨rfl, h⟩, rfl⟩

theorem nodup_methods (document : Document) :
    ((ofDocument document).perMethodCount.map Prod.fst).Nodup := by
  have hall : HttpMethod.all.Nodup := by decide
  rw [perMethodCount_ofDocument, List.map_map]
  exact (hall.filter _).map fun _ _ h => h

/-- A method that does not occur is counted as none. -/
theorem methodCount_ofDocument (document : Document) (method : HttpMethod) :
    (ofDocument document).methodCount method = countMethod document.operations method := by
  rw [methodCount, perMethodCount_ofDocument]
  by_cases h : countMethod document.operations method = 0
  · rw [List.lookup_eq_none_iff.mpr, h]
    · rfl
    · intro entry he
      obtain ⟨other, ho, rfl⟩ := List.mem_map.mp he
      have hc := of_decide_eq_true (List.mem_filter.mp ho).2
      simp only [bne_iff_ne]
      rintro rfl
      exact hc h
  · rw [List.lookup_graph _ (List.mem_filter.mpr ⟨method.mem_all, decide_eq_true h⟩)]
    rfl

/-- Every operation is counted under one method. -/
theorem sum_countMethod (operations : List Operation) :
    (HttpMethod.all.map (countMethod operations)).sum = operations.length := by
  induction operations with
  | nil => rfl
  | cons operation rest ih =>
      have hone : (HttpMethod.all.map fun method =>
          if operation.method == method then 1 else 0).sum = 1 := by
        cases operation.method <;> rfl
      have hcons (method : HttpMethod) : countMethod (operation :: rest) method =
          countMethod rest method + if operation.method == method then 1 else 0 :=
        List.countP_cons
      simp only [funext hcons]
      rw [List.sum_map_add, ih, hone, List.length_cons]

theorem sum_perMethodCount (document : Document) :
    ((ofDocument document).perMethodCount.map Prod.snd).sum =
      (ofDocument document).endpointCount := by
  have hall : (HttpMethod.all.map (countMethod document.operations)).sum =
      (ofDocument document).endpointCount := sum_countMethod _
  rw [perMethodCount_ofDocument, ← hall, List.map_map]
  induction HttpMethod.all with
  | nil => rfl
  | cons method rest ih =>
      by_cases h : countMethod document.operations method = 0
      · simpa [h] using ih
      · simpa [h] using ih

/-! ## All counts -/

/-- The counts tell neither the order of the operations nor what tags and schemas hold. -/
theorem ofDocument_congr {document other : Document}
    (hm : (document.operations.map Operation.method).Perm (other.operations.map Operation.method))
    (hr : (document.operations.flatMap fun operation =>
        (operation.responses.getD []).map Prod.fst).Perm
      (other.operations.flatMap fun operation => (operation.responses.getD []).map Prod.fst))
    (ht : document.tags.length = other.tags.length)
    (hs : document.componentSchemas.length = other.componentSchemas.length) :
    ofDocument document = ofDocument other := by
  have hl : document.operations.length = other.operations.length := by
    simpa only [List.length_map] using hm.length_eq
  have hc (method : HttpMethod) :
      countMethod document.operations method = countMethod other.operations method := by
    have hp := hm.countP_eq (· == method)
    rwa [List.countP_map, List.countP_map] at hp
  simp only [ofDocument, hl, hc, responseCodesOf_congr hr, ht, hs]

end ApiLint.Stats
