import ApiLint.Number.Binary64

/-! The shortest decimal that reads back as a given binary number. A decimal reads back when it
lies in the interval of reals that round to the number; the coarsest decimal grid with a point in
that interval fixes how many digits are written, and the point nearest to the number fixes them. -/

namespace ApiLint

/-- The number `digits * 10 ^ exponent`. -/
structure Decimal where
  digits : Nat
  exponent : Int
deriving DecidableEq, Repr

namespace Binary64

/-- The reals that round to a positive number, in quarters of its last binary place. The number
below a power of two is only half a place away, unless the exponent is the least one. -/
structure Interval where
  low : Nat
  middle : Nat
  high : Nat
  closed : Bool
deriving DecidableEq, Repr

def interval (x : Binary64) : Interval where
  low := 4 * x.significand -
    (if x.significand == leastNormal && leastExponent < x.exponent then 1 else 2)
  middle := 4 * x.significand
  high := 4 * x.significand + 2
  closed := x.significand % 2 == 0

/-- The point of the grid `10 ^ exponent` that lies in the interval nearest to its middle, a tie
going to the even one. The interval is given with the size of its quarter as `2 ^ binary`. -/
def Interval.gridPoint? (r : Interval) (binary exponent : Int) : Option Nat :=
  let decimal := power 10 exponent
  let quarter := power 2 binary
  let step := decimal.1 * quarter.2
  let unit := quarter.1 * decimal.2
  let inside (n : Nat) : Bool :=
    if r.closed then r.low * unit ≤ n * step && n * step ≤ r.high * unit
    else r.low * unit < n * step && n * step < r.high * unit
  let below := r.middle * unit / step
  let toBelow := r.middle * unit - below * step
  let toAbove := (below + 1) * step - r.middle * unit
  match inside below, inside (below + 1) with
  | true, true =>
    if toBelow < toAbove || (toBelow == toAbove && below % 2 == 0) then some below
    else some (below + 1)
  | true, false => some below
  | false, true => some (below + 1)
  | false, false => none

/-- Tries grids from `10 ^ exponent` downwards. -/
def Interval.coarsest (r : Interval) (binary : Int) : Nat → Int → Decimal
  | 0, exponent => ⟨0, exponent⟩
  | tries + 1, exponent =>
    match r.gridPoint? binary exponent with
    | some digits => ⟨digits, exponent⟩
    | none => r.coarsest binary tries (exponent - 1)

/-- A decimal order that no number of this binary order reaches. -/
def decimalBound (x : Binary64) : Int :=
  Int.fdiv ((x.significand.log2 + x.exponent + 1) * 30103) 100000 + 1

/-- The shortest decimal that rounds to the magnitude of `x`. Seventeen digits always suffice, and
the search starts at most three places above the first digit. -/
def shortest (x : Binary64) : Decimal :=
  if x.isZero then ⟨0, 0⟩
  else x.interval.coarsest (x.exponent - 2) 22 x.decimalBound

end Binary64

end ApiLint
