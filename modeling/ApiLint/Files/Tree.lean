import ApiLint.Files.Path

/-! Trees of files and directories, and the places that paths lead to. Names are texts: octets that
are no UTF-8 may name a file, but such files are outside of the model. -/

namespace ApiLint

inductive FileTree where
  | file (content : ByteArray)
  | directory (entries : List (String × FileTree))
deriving Inhabited

namespace FileTree

def read : FileTree → Except FileError ByteArray
  | file content => .ok content
  | directory _ => .error .isDirectory

/-- Puts a file or directory at the place that the names lead to, and makes the directories on the
way. -/
def put (tree : FileTree) (names : List String) (leaf : FileTree) : FileTree :=
  match names with
  | [] =>
    match tree, leaf with
    | directory entries, directory _ => directory entries
    | _, leaf => leaf
  | name :: rest =>
    let entries := match tree with
      | directory entries => entries
      | file _ => []
    let inner := (entries.lookup name).getD (directory [])
    directory (Entries.put entries name (inner.put rest leaf))

/-- The most octets that a name in a directory has. -/
def greatestName : Nat := 255

/-- Follows names from a place, which is given with the directories around it, innermost first. An
empty name and a dot stay, and two dots go to the directory around. Nothing is beyond a file. -/
def follow (tree : FileTree) (around : List FileTree) : List String → Except FileError FileTree
  | [] => .ok tree
  | name :: rest =>
    match tree with
    | file _ => .error .notDirectory
    | directory entries =>
      if name = "" ∨ name = "." then follow tree around rest
      else if name = ".." then
        match around with
        | [] => follow tree [] rest
        | outer :: around => follow outer around rest
      else if greatestName < name.utf8ByteSize then .error .nameTooLong
      else
        match entries.lookup name with
        | some inner => follow inner (tree :: around) rest
        | none => .error .notFound

end FileTree

/-- What paths lead to: the file or directory there, or why there is none. -/
abbrev Files := String → Except FileError FileTree

/-- A tree seen from one of its directories. -/
structure Workspace where
  root : FileTree
  directory : List String

/-- The most octets that a path has. -/
def greatestPath : Nat := 4095

/-- A path leads from the root if it starts with a slash, and else from the directory. -/
def Workspace.files (workspace : Workspace) : Files := fun path =>
  if path.toList.contains '\x00' then .error .zeroInName
  else if path = "" then .error .notFound
  else if greatestPath < path.utf8ByteSize then .error .nameTooLong
  else
    let names := (Path.parts path).map String.ofList
    let start := if path.toList.head? = some '/' then [] else workspace.directory
    workspace.root.follow [] (start ++ names)

end ApiLint
