import ApiLint.Files.Path
import ApiLint.Proofs.Text
import Mathlib.Data.List.TakeWhile

/-! The names of files, and the paths that are put together from them. Whether a file is taken for a
document is told by its name alone. -/

namespace ApiLint.Path

/-- What an entry of a directory is called: a part of a path that leads nowhere else. -/
structure IsName (name : String) : Prop where
  ne_empty : name ≠ ""
  ne_dot : name ≠ "."
  ne_dots : name ≠ ".."
  not_mem_slash : '/' ∉ name.toList

/-- The name ends in an extension of documents, in any case, with something in front of its dot. -/
def IsDocumentName (name : String) : Prop :=
  ∃ stem extension, name = stem ++ "." ++ extension ∧ stem ≠ "" ∧
    asciiLower extension ∈ documentExtensions

/-! ## Extensions -/

theorem extensionOfName?_append {extension : List Char} (h : '.' ∉ extension) (stem : List Char) :
    extensionOfName? (stem ++ '.' :: extension) = if stem = [] then none else some extension := by
  have hr : ∀ letter ∈ extension.reverse, decide (letter ≠ '.') = true := by
    intro letter hl
    exact decide_eq_true fun he => h (he ▸ List.mem_reverse.mp hl)
  have hn : (stem ++ '.' :: extension).reverse = extension.reverse ++ '.' :: stem.reverse := by
    simp
  rw [extensionOfName?, hn, List.dropWhile_append_of_pos hr, List.takeWhile_append_of_pos hr]
  simp

theorem extensionOfName?_of_not_mem {name : List Char} (h : '.' ∉ name) :
    extensionOfName? name = none := by
  have hd : name.reverse.dropWhile (· ≠ '.') = [] := by
    refine List.dropWhile_eq_nil_iff.mpr fun letter hl => ?_
    exact decide_eq_true fun he => h (he ▸ List.mem_reverse.mp hl)
  rw [extensionOfName?, hd]
  rfl

theorem extensionOfName?_eq_some_iff {name extension : List Char} :
    extensionOfName? name = some extension ↔
      ∃ stem, name = stem ++ '.' :: extension ∧ stem ≠ [] ∧ '.' ∉ extension := by
  constructor
  · intro h
    by_cases hm : '.' ∈ name
    · obtain ⟨after, before, hr, ha⟩ := List.eq_append_cons_of_mem (List.mem_reverse.mpr hm)
      obtain rfl : name = before.reverse ++ '.' :: after.reverse := by
        rw [← List.reverse_reverse name, hr]
        simp
      rw [extensionOfName?_append (mt List.mem_reverse.mp ha)] at h
      split at h
      · cases h
      · rename_i hs
        obtain rfl := Option.some.inj h
        exact ⟨before.reverse, rfl, hs, mt List.mem_reverse.mp ha⟩
    · rw [extensionOfName?_of_not_mem hm] at h
      cases h
  · rintro ⟨stem, rfl, hs, he⟩
    rw [extensionOfName?_append he, if_neg hs]

/-- The extensions of documents by their names. -/
theorem mem_documentExtensions_iff {extension : String} :
    extension ∈ documentExtensions ↔
      extension = "yaml" ∨ extension = "yml" ∨ extension = "json" := by
  simp only [documentExtensions, List.mem_cons, List.not_mem_nil, or_false]

theorem not_mem_dot_of_mem_documentExtensions {extension : String}
    (h : asciiLower extension ∈ documentExtensions) : '.' ∉ extension.toList := by
  intro hm
  have hl := dot_mem_asciiLower hm
  rcases mem_documentExtensions_iff.mp h with h | h | h <;>
    · rw [h] at hl
      revert hl
      decide

/-! ## Joined paths -/

/-- A path without the slash that it may end in. -/
def front (path : String) : List Char :=
  if path.toList.getLast? = some '/' then path.toList.dropLast else path.toList

theorem toList_join (directory name : String) :
    (join directory name).toList = front directory ++ '/' :: name.toList := by
  unfold join front
  split
  · rename_i h
    rw [String.toList_append, ← List.dropLast_append_getLast? _ h]
    simp
  · simp

theorem front_join {directory name : String} (h : IsName name) :
    front (join directory name) = front directory ++ '/' :: name.toList := by
  have hl : (join directory name).toList.getLast? ≠ some '/' := by
    have hn : name.toList ≠ [] := fun hn => h.ne_empty (String.toList_eq_nil_iff.mp hn)
    obtain ⟨letter, hl⟩ := Option.ne_none_iff_exists'.mp (mt List.getLast?_eq_none_iff.mp hn)
    rw [toList_join, List.getLast?_append_cons, List.getLast?_cons, hl]
    intro he
    exact h.not_mem_slash (Option.some.inj he ▸ List.mem_of_getLast? hl)
  rw [front, if_neg hl, toList_join]

theorem front_foldl_join {names : List String} (h : ∀ name ∈ names, IsName name) (path : String) :
    front (names.foldl join path) =
      front path ++ (names.map String.toList).flatMap ('/' :: ·) := by
  induction names generalizing path with
  | nil => simp
  | cons name names ih =>
      obtain ⟨hn, hr⟩ := List.forall_mem_cons.mp h
      rw [List.foldl_cons, ih hr, front_join hn, List.map_cons, List.flatMap_cons,
        List.append_assoc]

/-- The names on the way can be told from a path. -/
theorem foldl_join_inj {names others : List String} {path : String}
    (hn : ∀ name ∈ names, IsName name) (ho : ∀ name ∈ others, IsName name)
    (h : names.foldl join path = others.foldl join path) : names = others := by
  have hf := congrArg front h
  rw [front_foldl_join hn, front_foldl_join ho] at hf
  exact eq_of_flatMap_cons_eq (fun name hm => (hn name hm).not_mem_slash)
    (fun name hm => (ho name hm).not_mem_slash) (List.append_cancel_left hf)

theorem fileName?_join {directory name : String} (h : IsName name) :
    fileName? (join directory name) = some name.toList := by
  have hp : parts (join directory name) = (front directory).splitOn '/' ++ [name.toList] := by
    rw [parts, toList_join, List.splitOn_append_cons_self,
      List.splitOn_eq_singleton h.not_mem_slash]
  have hn : name.toList ≠ [] ∧ name.toList ≠ ['.'] ∧ name.toList ≠ ['.', '.'] :=
    ⟨fun he => h.ne_empty (String.toList_inj.mp he), fun he => h.ne_dot (String.toList_inj.mp he),
      fun he => h.ne_dots (String.toList_inj.mp he)⟩
  rw [fileName?, hp, List.filter_append, List.filter_cons_of_pos (by simp [hn])]
  simp [hn]

/-- A file with a name is taken for a document where the name ends like one. -/
theorem isDocument_join_iff {directory name : String} (h : IsName name) :
    isDocument (join directory name) ↔ IsDocumentName name := by
  have hi : isDocument (join directory name) ↔
      ∃ extension, extensionOfName? name.toList = some extension ∧
        asciiLower (String.ofList extension) ∈ documentExtensions := by
    rw [isDocument, extension?, fileName?_join h, Option.bind_some]
    cases extensionOfName? name.toList <;> simp
  rw [hi]
  constructor
  · rintro ⟨extension, he, hk⟩
    obtain ⟨stem, hn, hs, -⟩ := extensionOfName?_eq_some_iff.mp he
    refine ⟨String.ofList stem, String.ofList extension, ?_, ?_, hk⟩
    · rw [← String.toList_inj, hn]
      simp
    · simpa using hs
  · rintro ⟨stem, extension, rfl, hs, hk⟩
    refine ⟨extension.toList, extensionOfName?_eq_some_iff.mpr ⟨stem.toList, ?_, ?_, ?_⟩, ?_⟩
    · simp
    · exact fun hn => hs (String.toList_eq_nil_iff.mp hn)
    · exact not_mem_dot_of_mem_documentExtensions hk
    · rwa [String.ofList_toList]

end ApiLint.Path
