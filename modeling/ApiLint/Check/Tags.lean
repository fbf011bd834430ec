import ApiLint.Diagnostic
import ApiLint.Document.Basic

/-! Declared and used tags. The two differ exactly by the tags that are reported. -/

namespace ApiLint

namespace Document

/-- The names of the declared tags, each at its first occurrence. -/
def declaredTags (document : Document) : List String :=
  (document.tags.filterMap Tag.name).eraseDups

/-- The tags of all operations, each at its first occurrence. -/
def usedTags (document : Document) : List String :=
  (document.operations.flatMap Operation.tags).eraseDups

end Document

def checkTags (document : Document) (found : Diagnostics) : Diagnostics :=
  let declared := document.declaredTags
  let used := document.usedTags
  let found := (declared.filter (!used.contains ·)).foldl (fun found tag =>
    found.push .unusedTag "tags" s!"Tag \"{tag}\" is defined but never used") found
  (used.filter (!declared.contains ·)).foldl (fun found tag =>
    found.push .undeclaredTag "tags" s!"Tag \"{tag}\" is used but not defined in tags section")
    found

end ApiLint
