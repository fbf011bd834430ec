import ApiLint.Json.Basic

/-! Settings of a validation. -/

namespace ApiLint

structure Options where
  /-- Schema nodes more steps than this below the first one are not checked. -/
  maxSchemaDepth : Nat := 128
deriving DecidableEq, Repr, Inhabited

namespace Options

/-- The key of the one setting. -/
def depthKey : String := "maxSchemaDepth"

def toJson (options : Options) : Json :=
  .object [(depthKey, .number (.int options.maxSchemaDepth))]

/-- Settings with the depth that was found, if one was. -/
def ofDepth : Option Nat → Options
  | some depth => ⟨depth⟩
  | none => {}

end Options

end ApiLint
