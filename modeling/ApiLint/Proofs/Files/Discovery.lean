import ApiLint.Files.Discovery
import ApiLint.Proofs.Files.Names
import ApiLint.Proofs.Json
import ApiLint.Proofs.Text.Octets
import Mathlib.Data.List.Forall2

/-! The documents in directories. Each directory is sorted by itself, files and directories
together; all files below it come out in the order of the names that lead to them. -/

namespace ApiLint

namespace FileTree

/-- The file that the names lead to. -/
inductive HasFile : FileTree → List String → ByteArray → Prop where
  | here (content) : HasFile (.file content) [] content
  | inside {entries name inner names content} : (name, inner) ∈ entries →
      HasFile inner names content → HasFile (.directory entries) (name :: names) content

/-- The entries of each directory have names, and each has its own. -/
inductive WellNamed : FileTree → Prop where
  | file (content) : WellNamed (.file content)
  | directory {entries} : (entries.map Prod.fst).Nodup →
      (∀ entry ∈ entries, Path.IsName entry.1) → (∀ entry ∈ entries, WellNamed entry.2) →
      WellNamed (.directory entries)

theorem HasFile.isName {tree : FileTree} {names : List String} {content : ByteArray}
    (h : tree.HasFile names content) (hw : tree.WellNamed) : ∀ name ∈ names, Path.IsName name := by
  induction h with
  | here => exact List.forall_mem_nil _
  | inside he _ ih =>
      cases hw with
      | directory _ hn hb => exact List.forall_mem_cons.mpr ⟨hn _ he, ih (hb _ he)⟩

theorem WellNamed.follow {tree result : FileTree} {around : List FileTree} {names : List String}
    (ht : tree.WellNamed) (ha : ∀ outer ∈ around, outer.WellNamed)
    (h : tree.follow around names = .ok result) : result.WellNamed := by
  induction names generalizing tree around with
  | nil =>
      cases h
      exact ht
  | cons name names ih =>
      cases ht with
      | file content => cases h
      | @directory entries hd hn hb =>
          simp only [FileTree.follow] at h
          split_ifs at h with hstay hup hlong
          · exact ih (.directory hd hn hb) ha h
          · cases around with
            | nil => exact ih (.directory hd hn hb) ha h
            | cons outer around =>
                obtain ⟨ho, ha⟩ := List.forall_mem_cons.mp ha
                exact ih ho ha h
          · cases hl : entries.lookup name with
            | none =>
                rw [hl] at h
                cases h
            | some inner =>
                rw [hl] at h
                refine ih (hb _ (mem_of_lookup_eq_some hl)) ?_ h
                exact List.forall_mem_cons.mpr ⟨.directory hd hn hb, ha⟩

end FileTree

theorem Workspace.wellNamed_of_files {workspace : Workspace} (hw : workspace.root.WellNamed)
    {path : String} {tree : FileTree} (h : workspace.files path = .ok tree) : tree.WellNamed := by
  simp only [files] at h
  split_ifs at h
  · exact hw.follow (List.forall_mem_nil _) h
  · exact hw.follow (List.forall_mem_nil _) h

/-! ## Sorted directories -/

/-- A file below a path, as it is found. -/
def foundBelow (path : String) (file : List String × ByteArray) : Found where
  path := file.1.foldl Path.join path
  content := .ok file.2

/-- The files at and below a path that are taken for documents, in the order of their names. -/
structure Lists (path : String) (tree : FileTree) (listing : List (List String × ByteArray)) :
    Prop where
  mem_iff : ∀ names content, (names, content) ∈ listing ↔
    tree.HasFile names content ∧ Path.isDocument (names.foldl Path.join path)
  increasing : listing.Pairwise fun file other => file.1 < other.1

def sortedByName (entries : List (String × FileTree)) : List (String × FileTree) :=
  entries.mergeSort fun x y => !(y.1 < x.1)

theorem documentsAt_directory (path : String) (entries : List (String × FileTree)) :
    documentsAt path (.directory entries) =
      (sortedByName entries).flatMap fun entry =>
        documentsAt (Path.join path entry.1) entry.2 := by
  rw [documentsAt, documentsOf_eq_map, ← List.map_mergeSort (r := fun x y => !(y.1 < x.1)),
    List.flatMap_map, sortedByName]
  exact fun _ _ _ _ => rfl

theorem pairwise_sortedByName {entries : List (String × FileTree)}
    (h : (entries.map Prod.fst).Nodup) :
    (sortedByName entries).Pairwise fun entry other => entry.1 < other.1 := by
  have hs : (sortedByName entries).Pairwise fun entry other => entry.1 ≤ other.1 := by
    refine (List.pairwise_mergeSort ?_ ?_ entries).imp ?_
    · intro first second third hf hs
      simp only [Bool.not_eq_true', decide_eq_false_iff_not, String.not_lt] at hf hs ⊢
      exact String.le_trans hf hs
    · intro first second
      simpa only [Bool.or_eq_true, Bool.not_eq_true', decide_eq_false_iff_not, String.not_lt]
        using String.le_total first.1 second.1
    · intro first second hf
      simpa only [Bool.not_eq_true', decide_eq_false_iff_not, String.not_lt] using hf
  have hn : (sortedByName entries).Pairwise fun entry other => entry.1 ≠ other.1 :=
    List.pairwise_map.mp (((List.mergeSort_perm entries _).map Prod.fst).nodup_iff.mpr h)
  exact (hs.and hn).imp fun ⟨hle, hne⟩ => Std.lt_of_le_of_ne hle hne

theorem mem_sortedByName_iff {entries : List (String × FileTree)} {entry : String × FileTree} :
    entry ∈ sortedByName entries ↔ entry ∈ entries :=
  List.mem_mergeSort

theorem lists_file (path : String) (content : ByteArray) :
    Lists path (.file content) (if Path.isDocument path then [([], content)] else []) := by
  constructor
  · intro names content'
    constructor
    · intro h
      split at h
      · rename_i hp
        obtain ⟨rfl, rfl⟩ := Prod.mk.inj (List.mem_singleton.mp h)
        exact ⟨.here _, hp⟩
      · cases h
    · rintro ⟨h, hd⟩
      cases h
      have hp : Path.isDocument path := hd
      simp [hp]
  · split <;> simp

/-- The lists of the entries of a directory make up its list, in the order of their names. -/
theorem lists_directory {path : String} {entries : List (String × FileTree)}
    (hd : (entries.map Prod.fst).Nodup)
    {listing : String × FileTree → List (List String × ByteArray)}
    (h : ∀ entry ∈ entries, Lists (Path.join path entry.1) entry.2 (listing entry)) :
    Lists path (.directory entries) ((sortedByName entries).flatMap fun entry =>
      (listing entry).map fun file => (entry.1 :: file.1, file.2)) := by
  constructor
  · intro names content
    simp only [List.mem_flatMap, List.mem_map, mem_sortedByName_iff, Prod.mk.injEq]
    constructor
    · rintro ⟨entry, he, ⟨below, _⟩, hf, rfl, rfl⟩
      obtain ⟨hf, hp⟩ := ((h entry he).mem_iff _ _).mp hf
      exact ⟨.inside he hf, hp⟩
    · rintro ⟨hf, hp⟩
      cases hf with
      | @inside _ name inner below _ he hf =>
          exact ⟨(name, inner), he, (below, content), ((h _ he).mem_iff _ _).mpr ⟨hf, hp⟩, rfl, rfl⟩
  · refine List.pairwise_flatMap.mpr ⟨?_, ?_⟩
    · intro entry he
      refine List.pairwise_map.mpr ((h entry (mem_sortedByName_iff.mp he)).increasing.imp ?_)
      exact List.Lex.cons
    · refine (pairwise_sortedByName hd).imp ?_
      intro entry other hlt file hf file' hf'
      obtain ⟨_, -, rfl⟩ := List.mem_map.mp hf
      obtain ⟨_, -, rfl⟩ := List.mem_map.mp hf'
      exact .rel hlt

/-- The walk of a tree finds what its list tells. -/
theorem exists_lists {tree : FileTree} (h : tree.WellNamed) (path : String) :
    ∃ listing, Lists path tree listing ∧ documentsAt path tree = listing.map (foundBelow path) := by
  induction h generalizing path with
  | file content =>
      refine ⟨_, lists_file path content, ?_⟩
      rw [documentsAt]
      split <;> rfl
  | @directory entries hd _ _ ih =>
      choose! listing hl hf using fun entry he => ih entry he (Path.join path entry.1)
      refine ⟨_, lists_directory hd hl, ?_⟩
      rw [documentsAt_directory, List.map_flatMap]
      refine List.flatMap_congr fun entry he => ?_
      rw [hf entry (mem_sortedByName_iff.mp he), List.map_map]
      rfl

/-! ## Discovery -/

/-- The documents below a directory, each one once, in the order of the names that lead to them,
compared by their octets. -/
structure ListsDocuments (path : String) (entries : List (String × FileTree))
    (listing : List (List String × ByteArray)) : Prop where
  mem_iff : ∀ names content, (names, content) ∈ listing ↔
    (FileTree.directory entries).HasFile names content ∧
      ∃ name, names.getLast? = some name ∧ Path.IsDocumentName name
  increasing : listing.Pairwise fun file other => file.1.map octets < other.1.map octets
  nodup : ((listing.map (foundBelow path)).map Found.path).Nodup

/-- What a path contributes: the documents at any depth below it if it leads to a directory, and
else itself, whatever it leads to. -/
inductive Contributes (files : Files) (path : String) : List Found → Prop where
  | documents {entries : List (String × FileTree)} {listing : List (List String × ByteArray)} :
      files path = .ok (.directory entries) → ListsDocuments path entries listing →
      Contributes files path (listing.map (foundBelow path))
  | itself : (∀ entries, files path ≠ .ok (.directory entries)) →
      Contributes files path [⟨path, (files path).bind FileTree.read⟩]

theorem isDocument_foldl_join_iff {names : List String} (h : ∀ name ∈ names, Path.IsName name)
    (hn : names ≠ []) (path : String) :
    Path.isDocument (names.foldl Path.join path) ↔
      ∃ name, names.getLast? = some name ∧ Path.IsDocumentName name := by
  obtain ⟨front, last, rfl⟩ := List.eq_nil_or_concat' names |>.resolve_left hn
  have hl : Path.IsName last := h last (by simp)
  rw [List.foldl_append, List.foldl_cons, List.foldl_nil, Path.isDocument_join_iff hl]
  simp

theorem Lists.listsDocuments {path : String} {entries : List (String × FileTree)}
    {listing : List (List String × ByteArray)} (hw : (FileTree.directory entries).WellNamed)
    (h : Lists path (.directory entries) listing) : ListsDocuments path entries listing := by
  refine ⟨?_, h.increasing.imp map_octets_lt, ?_⟩
  · intro names content
    rw [h.mem_iff]
    refine and_congr_right fun hf => isDocument_foldl_join_iff (hf.isName hw) ?_ path
    cases hf
    exact List.cons_ne_nil _ _
  · have hn : ∀ file ∈ listing, ∀ name ∈ file.1, Path.IsName name :=
      fun file hf => ((h.mem_iff _ _).mp hf).1.isName hw
    refine List.pairwise_map.mpr (List.pairwise_map.mpr (h.increasing.imp_of_mem ?_))
    intro file other hf ho hlt he
    have hne := Path.foldl_join_inj (hn file hf) (hn other ho) he
    exact List.lt_irrefl _ (hne ▸ hlt)

theorem contributes_documentsFrom {files : Files} {path : String}
    (h : ∀ tree, files path = .ok tree → tree.WellNamed) :
    Contributes files path (documentsFrom files path) := by
  unfold documentsFrom
  cases hp : files path with
  | error error =>
      have hc : Contributes files path [⟨path, (files path).bind FileTree.read⟩] :=
        .itself (by simp [hp])
      rwa [hp] at hc
  | ok tree =>
      cases tree with
      | file content =>
          have hc : Contributes files path [⟨path, (files path).bind FileTree.read⟩] :=
            .itself (by simp [hp])
          rwa [hp] at hc
      | directory entries =>
          have hw := h _ hp
          obtain ⟨listing, hl, he⟩ := exists_lists hw path
          change Contributes files path (documentsAt path (.directory entries))
          rw [he]
          exact .documents hp (hl.listsDocuments hw)

/-- Discovery gives what the paths contribute, path by path. -/
theorem discover_contributes {files : Files} {paths : List String}
    (h : ∀ path ∈ paths, ∀ tree, files path = .ok tree → tree.WellNamed) :
    ∃ contributions : List (List Found), List.Forall₂ (Contributes files) paths contributions ∧
      discover files paths = contributions.flatten := by
  refine ⟨paths.map (documentsFrom files), ?_, rfl⟩
  refine List.forall₂_map_right_iff.mpr (List.forall₂_same.mpr ?_)
  exact fun path hp => contributes_documentsFrom (h path hp)

/-- A directory that is called like a document, next to a file that is called like an extension. -/
def misleadingNames : Workspace where
  root := .directory [("specs", .directory [("b.JSON", .file .empty), (".json", .file .empty),
    ("a.yaml", .directory [("x.tar.YML", .file .empty)])])]
  directory := []

theorem discover_contributes_misleadingNames :
    (∀ path ∈ ["specs", "missing.txt"], ∀ tree, misleadingNames.files path = .ok tree →
        tree.WellNamed) ∧
      ∃ contributions : List (List Found),
        List.Forall₂ (Contributes misleadingNames.files) ["specs", "missing.txt"] contributions ∧
          discover misleadingNames.files ["specs", "missing.txt"] = contributions.flatten := by
  have hw : misleadingNames.root.WellNamed := by
    have hx : Path.IsName "x.tar.YML" := ⟨by decide, by decide, by decide, by decide⟩
    have ha : Path.IsName "a.yaml" := ⟨by decide, by decide, by decide, by decide⟩
    have hj : Path.IsName ".json" := ⟨by decide, by decide, by decide, by decide⟩
    have hb : Path.IsName "b.JSON" := ⟨by decide, by decide, by decide, by decide⟩
    have hs : Path.IsName "specs" := ⟨by decide, by decide, by decide, by decide⟩
    refine .directory (by simp) (by simpa using hs) (List.forall_mem_singleton.mpr ?_)
    refine .directory (by decide) (by simp [hb, hj, ha]) ?_
    refine List.forall_mem_cons.mpr ⟨.file _, List.forall_mem_cons.mpr ⟨.file _, ?_⟩⟩
    refine List.forall_mem_singleton.mpr (.directory (by simp) (by simpa using hx) ?_)
    exact List.forall_mem_singleton.mpr (.file _)
  have h : ∀ path ∈ ["specs", "missing.txt"], ∀ tree, misleadingNames.files path = .ok tree →
      tree.WellNamed := fun _ _ _ hf => Workspace.wellNamed_of_files hw hf
  exact ⟨h, discover_contributes h⟩

end ApiLint
