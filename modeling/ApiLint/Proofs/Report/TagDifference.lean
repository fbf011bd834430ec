import ApiLint.Proofs.Diagnostics
import ApiLint.Proofs.Document.Listing

/-! Declared tags against used ones. What is found about tags is the difference of the two lists in
both directions, and no description has an error in its tags. -/

namespace ApiLint

namespace Json

end Json

namespace Document

end Document

/-! ## The findings -/

def unusedTag (tag : String) : Diagnostic :=
  ⟨.unusedTag, s!"Tag \"{tag}\" is defined but never used", "tags"⟩

def undeclaredTag (tag : String) : Diagnostic :=
  ⟨.undeclaredTag, s!"Tag \"{tag}\" is used but not defined in tags section", "tags"⟩

-- A number and its text are one name.
example :
    checkTags (.ofJson (.object [("tags", .array [.object [("name", .number (.int 7))]]),
      ("paths", .object [("/pets", .object [("GET", .object [("tags", .array [.string "7"])])])])]))
      {} = {} := by decide +kernel

end ApiLint
