import ApiLint.Proofs.Files.Discovery

/-! The formats of files. What is taken for a document in a directory is exactly what is read in the
format of its extension, and neither is touched by the case of letters. -/

namespace ApiLint

/-! ## The case of letters in a path -/

namespace Path

theorem map_toLower_eq_iff {marks letters : List Char} (h : ∀ mark ∈ marks, mark.isAlpha = false) :
    letters.map Char.toLower = marks ↔ letters = marks := by
  induction letters generalizing marks with
  | nil => simp
  | cons letter rest ih =>
      cases marks with
      | nil => simp
      | cons mark marks =>
          obtain ⟨hm, hr⟩ := List.forall_mem_cons.mp h
          simp only [List.map_cons, List.cons.injEq, toLower_eq_iff hm, ih hr]

theorem parts_asciiLower (path : String) :
    parts (asciiLower path) = (parts path).map (List.map Char.toLower) := by
  rw [parts, parts, toList_asciiLower]
  exact splitOn_map (fun letter => toLower_eq_iff (by decide)) path.toList

theorem fileName?_asciiLower (path : String) :
    fileName? (asciiLower path) = (fileName? path).map (List.map Char.toLower) := by
  have hd (part : List Char) : part.map Char.toLower = ['.'] ↔ part = ['.'] :=
    map_toLower_eq_iff (by simp)
  have hdd (part : List Char) : part.map Char.toLower = ['.', '.'] ↔ part = ['.', '.'] :=
    map_toLower_eq_iff (by simp)
  simp only [fileName?, parts_asciiLower, List.filter_map, List.getLast?_map, Option.filter_map]
  simp [Function.comp_def, hd, hdd]

theorem extensionOfName?_map_toLower (name : List Char) :
    extensionOfName? (name.map Char.toLower) =
      (extensionOfName? name).map (List.map Char.toLower) := by
  have hd : (fun letter : Char => decide (letter ≠ '.')) ∘ Char.toLower =
      fun letter => decide (letter ≠ '.') := by
    funext letter
    simp [toLower_eq_iff (show '.'.isAlpha = false by decide)]
  simp only [extensionOfName?, ← List.map_reverse, List.takeWhile_map, List.dropWhile_map, hd,
    ← List.map_drop, List.isEmpty_map]
  split <;> rfl

theorem extension?_asciiLower (path : String) :
    extension? (asciiLower path) = (extension? path).map asciiLower := by
  rw [extension?, extension?, fileName?_asciiLower]
  cases fileName? path with
  | none => rfl
  | some name =>
      rw [Option.map_some, Option.bind_some, Option.bind_some, extensionOfName?_map_toLower]
      cases extensionOfName? name with
      | none => rfl
      | some letters =>
          simp only [Option.map_some, Option.some_inj, ← String.toList_inj, toList_asciiLower,
            String.toList_ofList]

theorem front_asciiLower (path : String) :
    front (asciiLower path) = (front path).map Char.toLower := by
  have hl : (asciiLower path).toList.getLast? = some '/' ↔ path.toList.getLast? = some '/' := by
    rw [toList_asciiLower, List.getLast?_map]
    cases path.toList.getLast? with
    | none => simp
    | some letter => simp [toLower_eq_iff (show '/'.isAlpha = false by decide)]
  by_cases h : path.toList.getLast? = some '/'
  · rw [front, front, if_pos h, if_pos (hl.mpr h), toList_asciiLower, List.map_dropLast]
  · rw [front, front, if_neg h, if_neg (mt hl.mp h), toList_asciiLower]

theorem asciiLower_join (directory name : String) :
    asciiLower (join directory name) = join (asciiLower directory) (asciiLower name) := by
  rw [← String.toList_inj, toList_asciiLower, toList_join, toList_join, front_asciiLower,
    toList_asciiLower, List.map_append, List.map_cons]
  rfl

theorem asciiLower_foldl_join (path : String) (names : List String) :
    asciiLower (names.foldl join path) = (names.map asciiLower).foldl join (asciiLower path) := by
  induction names generalizing path with
  | nil => rfl
  | cons name names ih => rw [List.foldl_cons, ih, asciiLower_join, List.map_cons, List.foldl_cons]

end Path

/-! ## Extensions of formats -/

/-- The extensions that stand for a format, in lower case. -/
def Format.extensions : Format → List String
  | json => ["json"]
  | yaml => ["yaml", "yml"]

namespace Path

variable {path : String} {format : Format}

theorem format?_eq_some_iff : format? path = some format ↔
    ∃ extension, extension? path = some extension ∧ asciiLower extension ∈ format.extensions := by
  rw [format?]
  cases extension? path with
  | none => simp
  | some extension =>
      simp only [Option.map_some, Option.some_inj, exists_eq_left']
      split <;> cases format <;> simp_all [Format.extensions]

theorem isDocument_iff : isDocument path ↔
    ∃ extension, extension? path = some extension ∧ asciiLower extension ∈ documentExtensions := by
  rw [isDocument]
  cases extension? path <;> simp

/-- Documents are told by the same extensions as formats. -/
theorem mem_documentExtensions_iff_exists_format {extension : String} :
    extension ∈ documentExtensions ↔ ∃ format : Format, extension ∈ format.extensions := by
  constructor
  · intro h
    rcases mem_documentExtensions_iff.mp h with rfl | rfl | rfl
    · exact ⟨.yaml, by decide⟩
    · exact ⟨.yaml, by decide⟩
    · exact ⟨.json, by decide⟩
  · rintro ⟨format, h⟩
    cases format with
    | json =>
        obtain rfl := List.mem_singleton.mp h
        decide
    | yaml =>
        simp only [Format.extensions, List.mem_cons, List.not_mem_nil, or_false] at h
        rcases h with rfl | rfl <;> decide

theorem isDocument_iff_exists_format? :
    isDocument path ↔ ∃ format, format? path = some format := by
  simp only [isDocument_iff, format?_eq_some_iff, mem_documentExtensions_iff_exists_format]
  constructor
  · rintro ⟨extension, he, format, hf⟩
    exact ⟨format, extension, he, hf⟩
  · rintro ⟨format, extension, he, hf⟩
    exact ⟨extension, he, format, hf⟩

end Path

/-! ## Reading a file -/

theorem Document.ofYamlText_ne_json (text other : String) :
    ofYamlText text ≠ .error (.json other) := by
  intro h
  unfold ofYamlText ofYaml at h
  split at h
  · split at h
    · cases h
    · cases h
  · cases h

/-- A text that is no JSON fails in another way in each format. -/
theorem Document.format_eq_of_ofText_eq {text : String} (hp : Json.parse? text = none)
    {format other : Format} (h : ofText (some format) text = ofText (some other) text) :
    format = other := by
  have hj : ofJsonText text = .error (.json text) := by rw [ofJsonText, hp]
  cases format with
  | json =>
      cases other with
      | json => rfl
      | yaml => exact absurd (h.symm.trans hj) (ofYamlText_ne_json text text)
  | yaml =>
      cases other with
      | json => exact absurd (h.trans hj) (ofYamlText_ne_json text text)
      | yaml => rfl

namespace Path

/-- A file at the path is read in the format that is chosen for its text. -/
def ReadsIn (path : String) (choose : String → Format) : Prop :=
  ∀ octets text, String.fromUTF8? octets = some text →
    Document.ofFile path (.ok octets) = Document.ofText (some (choose text)) text

/-- A file at the path is read in the format of its extension, whatever its text. -/
def ReadByExtension (path : String) : Prop :=
  ∃ extension format, extension? path = some extension ∧
    asciiLower extension ∈ Format.extensions format ∧ ReadsIn path fun _ => format

/-- A file at the path is read in the format that its text looks like. -/
def ReadByContent (path : String) : Prop := ReadsIn path Document.sniff

variable {path : String} {choose : String → Format}

theorem ofFile_eq_ofText {octets : ByteArray} {text : String}
    (h : String.fromUTF8? octets = some text) :
    Document.ofFile path (.ok octets) =
      Document.ofText (some ((format? path).getD (Document.sniff text))) text := by
  simp only [Document.ofFile, h]
  rfl

theorem readsIn_of_forall (h : ∀ text, (format? path).getD (Document.sniff text) = choose text) :
    ReadsIn path choose := by
  intro octets text ht
  rw [ofFile_eq_ofText ht, h]

theorem ReadsIn.getD_eq (h : ReadsIn path choose) (text : String) (hp : Json.parse? text = none) :
    (format? path).getD (Document.sniff text) = choose text := by
  have ht : String.fromUTF8? text.toByteArray = some text := by
    rw [String.fromUTF8?, dif_pos text.isValidUTF8]
    rfl
  exact Document.format_eq_of_ofText_eq hp ((ofFile_eq_ofText ht).symm.trans (h _ _ ht))

/-- Two texts that are no JSON, one of which looks like it, tell in which format a file is read. -/
theorem ReadsIn.getD_eq_and (h : ReadsIn path choose) :
    (format? path).getD .yaml = choose "" ∧ (format? path).getD .json = choose "\x7b" :=
  ⟨h.getD_eq "" (by decide +kernel), h.getD_eq "\x7b" (by decide +kernel)⟩

theorem readsIn_iff {format : Format} :
    ReadsIn path (fun _ => format) ↔ format? path = some format := by
  constructor
  · intro h
    obtain ⟨hy, hj⟩ := h.getD_eq_and
    cases hf : format? path with
    | none =>
        rw [hf] at hy hj
        cases hy.trans hj.symm
    | some other =>
        rw [hf] at hy
        exact congrArg some hy
  · intro h
    exact readsIn_of_forall fun text => by rw [h, Option.getD_some]

theorem readByContent_iff : ReadByContent path ↔ format? path = none := by
  constructor
  · intro h
    obtain ⟨hy, hj⟩ := ReadsIn.getD_eq_and h
    cases hf : format? path with
    | none => rfl
    | some other =>
        rw [hf] at hy hj
        cases hy.symm.trans hj
  · intro h
    exact readsIn_of_forall fun text => by rw [h, Option.getD_none]

theorem isDocument_iff_readByExtension : isDocument path ↔ ReadByExtension path := by
  rw [isDocument_iff_exists_format?]
  constructor
  · rintro ⟨format, hf⟩
    obtain ⟨extension, he, hm⟩ := format?_eq_some_iff.mp hf
    exact ⟨extension, format, he, hm, readsIn_iff.mpr hf⟩
  · rintro ⟨_, format, -, -, hr⟩
    exact ⟨format, readsIn_iff.mp hr⟩

theorem not_isDocument_iff_readByContent : ¬isDocument path ↔ ReadByContent path := by
  rw [isDocument_iff_exists_format?, readByContent_iff, Option.eq_none_iff_forall_ne_some]
  exact not_exists

end Path

/-! ## Files in directories -/

theorem FileTree.sizeOf_lt_of_mem {entry : String × FileTree} {entries : List (String × FileTree)}
    (h : entry ∈ entries) : sizeOf entry.2 < sizeOf (directory entries) := by
  have := List.sizeOf_lt_of_mem h
  obtain ⟨name, inner⟩ := entry
  simp only [Prod.mk.sizeOf_spec, directory.sizeOf_spec] at this ⊢
  omega

theorem FileTree.induction {motive : FileTree → Prop} (file : ∀ content, motive (.file content))
    (directory : ∀ entries, (∀ entry ∈ entries, motive entry.2) → motive (.directory entries)) :
    ∀ tree, motive tree
  | .file content => file content
  | .directory entries => directory entries fun entry _ => induction file directory entry.2
termination_by tree => sizeOf tree
decreasing_by exact sizeOf_lt_of_mem ‹_›

theorem isDocument_of_mem_documentsAt {tree : FileTree} {path : String} {found : Found}
    (h : found ∈ documentsAt path tree) : Path.isDocument found.path := by
  induction tree using FileTree.induction generalizing path with
  | file content =>
      rw [documentsAt] at h
      split at h
      · rename_i hp
        obtain rfl := List.mem_singleton.mp h
        exact hp
      · cases h
  | directory entries ih =>
      rw [documentsAt_directory] at h
      obtain ⟨entry, he, hf⟩ := List.mem_flatMap.mp h
      exact ih entry (mem_sortedByName_iff.mp he) hf

namespace FileTree.HasFile

variable {tree : FileTree} {names : List String} {content : ByteArray}

theorem mem_documentsAt {path : String} (h : tree.HasFile names content)
    (hd : Path.isDocument (names.foldl Path.join path)) :
    foundBelow path (names, content) ∈ documentsAt path tree := by
  induction h generalizing path with
  | here content =>
      have hp : Path.isDocument path := hd
      rw [documentsAt, if_pos hp]
      exact List.mem_singleton_self _
  | @inside entries name inner names content he _ ih =>
      rw [documentsAt_directory]
      exact List.mem_flatMap.mpr ⟨(name, inner), mem_sortedByName_iff.mpr he, ih hd⟩

/-- A file in a directory is found exactly if its path is that of a document. -/
theorem mem_documentsAt_iff {path : String} (h : tree.HasFile names content) :
    foundBelow path (names, content) ∈ documentsAt path tree ↔
      Path.isDocument (names.foldl Path.join path) :=
  ⟨isDocument_of_mem_documentsAt, h.mem_documentsAt⟩

end FileTree.HasFile

/-! ## Discovery and loading -/

theorem Path.format?_eq_of_asciiLower_eq {path other : String}
    (h : asciiLower path = asciiLower other) : format? path = format? other := by
  rw [format?, format?, ← extension?_asciiLower, ← extension?_asciiLower, h]

theorem Path.isDocument_iff_of_asciiLower_eq {path other : String}
    (h : asciiLower path = asciiLower other) : isDocument path ↔ isDocument other := by
  rw [isDocument_iff_exists_format?, isDocument_iff_exists_format?,
    format?_eq_of_asciiLower_eq h]

theorem Path.readsIn_iff_of_asciiLower_eq {path other : String}
    (h : asciiLower path = asciiLower other) (choose : String → Format) :
    ReadsIn path choose ↔ ReadsIn other choose := by
  simp only [ReadsIn, Document.ofFile, format?_eq_of_asciiLower_eq h]

/-- What is taken for a document is what is read by its extension, so that no file that is found in
a directory is read by what it looks like. Paths that differ only in the case of letters are alike:
both or neither of two files with such paths are found, and both are read in the same format. -/
theorem documents_read_by_extension :
    (∀ path, Path.isDocument path ↔ Path.ReadByExtension path) ∧
      (∀ path, ¬Path.isDocument path ↔ Path.ReadByContent path) ∧
      (∀ files path entries, files path = .ok (.directory entries) →
        ∀ found ∈ documentsFrom files path,
          Path.ReadByExtension found.path ∧ ¬Path.ReadByContent found.path) ∧
      (∀ path other, asciiLower path = asciiLower other →
        (Path.isDocument path ↔ Path.isDocument other) ∧
          ∀ choose, Path.ReadsIn path choose ↔ Path.ReadsIn other choose) ∧
      ∀ (tree other : FileTree) path names spellings content content',
        tree.HasFile names content → other.HasFile spellings content' →
          names.map asciiLower = spellings.map asciiLower →
            (foundBelow path (names, content) ∈ documentsAt path tree ↔
              foundBelow path (spellings, content') ∈ documentsAt path other) := by
  refine ⟨fun path => Path.isDocument_iff_readByExtension,
    fun path => Path.not_isDocument_iff_readByContent, ?_, ?_, ?_⟩
  · intro files path entries hf found hm
    rw [documentsFrom, hf] at hm
    have hd : Path.isDocument found.path := isDocument_of_mem_documentsAt hm
    exact ⟨Path.isDocument_iff_readByExtension.mp hd,
      fun hc => Path.not_isDocument_iff_readByContent.mpr hc hd⟩
  · intro path other h
    exact ⟨Path.isDocument_iff_of_asciiLower_eq h, Path.readsIn_iff_of_asciiLower_eq h⟩
  · intro tree other path names spellings content content' ht ho hn
    rw [ht.mem_documentsAt_iff, ho.mem_documentsAt_iff]
    apply Path.isDocument_iff_of_asciiLower_eq
    rw [Path.asciiLower_foldl_join, Path.asciiLower_foldl_join, hn]

/-- Extensions in capitals, behind a name with two dots and behind one that starts with a dot. -/
def capitalNames : FileTree :=
  .directory [("x.tar.YML", .file .empty), ("nested", .directory [(".pets.Json", .file .empty)])]

def smallNames : FileTree := .directory [("Nested", .directory [(".pets.json", .file .empty)])]

theorem documents_read_by_extension_capitalNames :
    Path.ReadByExtension "x.tar.YML" ∧ Path.ReadByContent ".json" ∧
      (∀ found ∈ documentsFrom (fun _ => .ok capitalNames) "specs",
        Path.ReadByExtension found.path ∧ ¬Path.ReadByContent found.path) ∧
      asciiLower "x.tar.YML" = asciiLower "X.tar.yml" ∧
      (Path.ReadsIn "x.tar.YML" (fun _ => .yaml) ↔ Path.ReadsIn "X.tar.yml" fun _ => .yaml) ∧
      capitalNames.HasFile ["nested", ".pets.Json"] .empty ∧
      smallNames.HasFile ["Nested", ".pets.json"] .empty ∧
      (foundBelow "specs" (["nested", ".pets.Json"], .empty) ∈ documentsAt "specs" capitalNames ↔
        foundBelow "specs" (["Nested", ".pets.json"], .empty) ∈
          documentsAt "specs" smallNames) := by
  obtain ⟨he, hc, hd, hl, ht⟩ := documents_read_by_extension
  have hx : asciiLower "x.tar.YML" = asciiLower "X.tar.yml" := asciiLower_eq_iff.mpr (by decide)
  have hn : ["nested", ".pets.Json"].map asciiLower = ["Nested", ".pets.json"].map asciiLower := by
    have hd : asciiLower "nested" = asciiLower "Nested" := asciiLower_eq_iff.mpr (by decide)
    have hf : asciiLower ".pets.Json" = asciiLower ".pets.json" :=
      asciiLower_eq_iff.mpr (by decide)
    simp only [List.map_cons, hd, hf]
  have hcapital : capitalNames.HasFile ["nested", ".pets.Json"] .empty :=
    .inside (.tail _ (.head _)) (.inside (.head _) (.here _))
  have hsmall : smallNames.HasFile ["Nested", ".pets.json"] .empty :=
    .inside (.head _) (.inside (.head _) (.here _))
  refine ⟨(he _).mp (by decide +kernel), (hc _).mp (by decide +kernel), ?_, hx, (hl _ _ hx).2 _,
    hcapital, hsmall, ht _ _ _ _ _ _ _ hcapital hsmall hn⟩
  exact hd (fun _ => .ok capitalNames) "specs" _ rfl

end ApiLint
