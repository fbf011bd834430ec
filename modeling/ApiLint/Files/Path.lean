import ApiLint.Load

/-! Paths as text, and what the extension of a file name says about the file. A name that is no
UTF-8 has no text and so no extension; the model leaves such names out. -/

namespace ApiLint.Path

/-- The parts between slashes. -/
def parts (path : String) : List (List Char) := path.toList.splitOn '/'

/-- The last part that names something. None if that is the parent of a directory. -/
def fileName? (path : String) : Option (List Char) :=
  ((parts path).filter fun part => part ≠ [] ∧ part ≠ ['.']).getLast?.filter (· ≠ ['.', '.'])

/-- What follows the last dot of a file name, unless that dot is its first character. -/
def extensionOfName? (name : List Char) : Option (List Char) :=
  let stem := (name.reverse.dropWhile (· ≠ '.')).drop 1
  if stem.isEmpty then none else some (name.reverse.takeWhile (· ≠ '.')).reverse

def extension? (path : String) : Option String :=
  ((fileName? path).bind extensionOfName?).map String.ofList

/-- The path of an entry of a directory. -/
def join (directory name : String) : String :=
  if directory.toList.getLast? = some '/' then directory ++ name else directory ++ "/" ++ name

/-- The extensions of documents. -/
def documentExtensions : List String := ["yaml", "yml", "json"]

/-- Whether a file found in a directory is taken for a document, by its extension in any case. -/
def isDocument (path : String) : Bool :=
  (extension? path).any fun text => documentExtensions.any fun known => asciiLower text == known

/-- The format that an extension stands for, if it stands for one. -/
def format? (path : String) : Option Format :=
  match (extension? path).map asciiLower with
  | some "json" => some .json
  | some "yaml" => some .yaml
  | some "yml" => some .yaml
  | _ => none

end ApiLint.Path
