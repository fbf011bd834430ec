import ApiLint.Document.Schema
import Mathlib.Data.List.Infix

/-! Where a schema node stands below another one, and the dotted path that tells it. -/

namespace ApiLint

/-- How a schema node leads to a further one. -/
inductive Step where
  | property (name : String)
  | items
  | member (kind : Composition) (index : Nat)
deriving DecidableEq

def Step.text : Step → String
  | property name => ".properties." ++ name
  | items => ".items"
  | member kind index => "." ++ kind.keyword ++ "[" ++ toString index ++ "]"

/-- The steps from a node down to one below it. -/
abbrev Location := List Step

namespace Location

/-- The path of a location below `base`. -/
def path (base : String) : Location → String
  | [] => base
  | step :: rest => path (base ++ step.text) rest

@[simp] theorem path_nil (base : String) : path base [] = base := rfl

@[simp] theorem path_cons (base : String) (step : Step) (rest : Location) :
    path base (step :: rest) = path (base ++ step.text) rest := rfl

theorem path_append (base : String) (above below : Location) :
    path base (above ++ below) = path (path base above) below := by
  induction above generalizing base with
  | nil => rfl
  | cons step rest ih => exact ih (base ++ step.text)

theorem isPrefix_path (base : String) (location : Location) :
    base.toList <+: (path base location).toList := by
  induction location generalizing base with
  | nil => exact List.prefix_rfl
  | cons step rest ih =>
      have here : base.toList <+: (base ++ step.text).toList := by
        rw [String.toList_append]
        exact List.prefix_append _ _
      exact here.trans (ih (base ++ step.text))

/-- Going down never leaves the path of a node passed on the way. -/
theorem path_isPrefix_path_append (base : String) (above below : Location) :
    (path base above).toList <+: (path base (above ++ below)).toList := by
  rw [path_append]
  exact isPrefix_path _ _

end Location

end ApiLint
