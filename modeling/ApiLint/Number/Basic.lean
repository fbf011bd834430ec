import ApiLint.Number.Shortest

/-! Numbers of a document and their text: integers in decimal, all others by the shortest decimal
that reads back, positional or scientific by the place of the first digit. -/

namespace ApiLint

inductive Number where
  | int (value : Int)
  | float (value : Binary64)
deriving DecidableEq, Repr, Inhabited

/-- The orders of the first digit between which a decimal is written positionally. -/
structure PositionalRange where
  least : Int
  greatest : Int

def Number.positional : PositionalRange := ⟨-5, 15⟩

def zeros (count : Nat) : String := String.ofList (List.replicate count '0')

namespace Decimal

/-- The order of the first digit. -/
def order (x : Decimal) : Int := x.exponent + (toString x.digits).length - 1

/-- A positional text always shows a point with a digit on both sides. -/
def positionalText (x : Decimal) : String :=
  let digits := (toString x.digits).toList
  match x.exponent with
  | .ofNat trailing => String.ofList digits ++ zeros trailing ++ ".0"
  | .negSucc places =>
    let whole := digits.length - (places + 1)
    if whole == 0 then "0." ++ zeros (places + 1 - digits.length) ++ String.ofList digits
    else String.ofList (digits.take whole) ++ "." ++ String.ofList (digits.drop whole)

/-- A scientific text has a signed exponent, and no point after a lone digit. -/
def scientificText (x : Decimal) : String :=
  let digits := (toString x.digits).toList
  let fraction := match digits.drop 1 with
    | [] => ""
    | rest => "." ++ String.ofList rest
  let sign := if x.order < 0 then "-" else "+"
  String.ofList (digits.take 1) ++ fraction ++ "e" ++ sign ++ toString x.order.natAbs

def text (x : Decimal) (range : PositionalRange) : String :=
  if range.least ≤ x.order ∧ x.order ≤ range.greatest then x.positionalText
  else x.scientificText

end Decimal

def Binary64.text (x : Binary64) : String :=
  (if x.negative then "-" else "") ++ x.shortest.text Number.positional

def Number.text : Number → String
  | .int value => toString value
  | .float value => value.text

end ApiLint
