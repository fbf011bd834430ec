import ApiLint.Files.Tree

/-! Documents among files. A directory stands for all documents in it at any depth, in the order of
their names; every other path stands for itself, whatever it leads to. -/

namespace ApiLint

/-- A path that is read as a document, and what is read there. -/
structure Found where
  path : String
  content : Except FileError ByteArray

mutual

/-- The documents at and below a place in a tree. Files and directories are sorted together by
name. -/
def documentsAt (path : String) : FileTree → List Found
  | .file content => if Path.isDocument path then [⟨path, .ok content⟩] else []
  | .directory entries =>
    ((documentsOf path entries).mergeSort fun x y => !(y.1 < x.1)).flatMap Prod.snd

/-- The name of each entry of a directory, and the documents at and below it. -/
def documentsOf (path : String) : List (String × FileTree) → List (String × List Found)
  | [] => []
  | (name, entry) :: rest =>
    (name, documentsAt (Path.join path name) entry) :: documentsOf path rest

end

/-- Each entry is looked at under its own path. -/
theorem documentsOf_eq_map (path : String) (entries : List (String × FileTree)) :
    documentsOf path entries =
      entries.map fun entry => (entry.1, documentsAt (Path.join path entry.1) entry.2) := by
  induction entries with
  | nil => rfl
  | cons entry rest ih => simp only [documentsOf, List.map_cons, ih]

/-- The documents that one path stands for. -/
def documentsFrom (files : Files) (path : String) : List Found :=
  match files path with
  | .ok (.directory entries) => documentsAt path (.directory entries)
  | .ok (.file content) => [⟨path, .ok content⟩]
  | .error error => [⟨path, .error error⟩]

/-- The documents that paths stand for, path by path. -/
def discover (files : Files) (paths : List String) : List Found :=
  paths.flatMap (documentsFrom files)

namespace Document

/-- Reads a file in the format of its extension, or in the one that its text looks like. -/
def ofFile (path : String) (content : Except FileError ByteArray) : Except LoadError Document :=
  match content with
  | .error error => .error (.file error)
  | .ok octets =>
    match String.fromUTF8? octets with
    | none => .error (.file .notText)
    | some text => ofText (Path.format? path) text

end Document

end ApiLint
