import ApiLint.Number.Basic

/-! Decimal text read as a binary number, in two ways. `Binary64.ofDecimal?` rounds the exact value
once. `Number.ofLiteral?` keeps only the digits that fit a machine word and scales them by a rounded
power of ten, so its last binary place may differ from the exactly rounded one. -/

namespace ApiLint

namespace Binary64

/-- The exact value `± digits * 10 ^ exponent` rounded once. Orders beyond four hundred are far
outside the range of finite numbers, and are settled without computing the power. -/
def ofDecimal? (negative : Bool) (digits : Nat) (exponent : Int) : Option Binary64 :=
  let order := (Decimal.mk digits exponent).order
  if digits == 0 || order < -400 then some (zero negative)
  else if 400 < order then none
  else
    let (top, bottom) := power 10 exponent
    ofRatio? negative (digits * top) bottom

/-- The greatest power of ten that scaling uses in one step. -/
def greatestPower : Nat := 308

def powerOfTen? (k : Nat) : Option Binary64 := ofNat? (Nat.pow 10 k)

/-- Divides by `10 ^ k`, rounding after each step. -/
def scaleDown? (x : Binary64) (k : Nat) : Option Binary64 :=
  if k ≤ greatestPower then do x.div? (← powerOfTen? k)
  else if x.isZero then some x
  else do
    let rest ← x.div? (← powerOfTen? greatestPower)
    rest.scaleDown? (k - greatestPower)
termination_by k
decreasing_by simp only [greatestPower] at *; omega

/-- Multiplies by `10 ^ k`; a step that leaves the finite numbers has no result. -/
def scaleUp? (x : Binary64) (k : Nat) : Option Binary64 :=
  if k ≤ greatestPower then do x.mul? (← powerOfTen? k)
  else if x.isZero then some x
  else none

end Binary64

/-- The parts of a number as written: a sign, the digits before the point, those after it if there
is a point, and the sign and digits of an exponent if there is one. -/
structure NumberLiteral where
  negative : Bool
  whole : List Nat
  fraction : Option (List Nat)
  exponent : Option (Bool × List Nat)
deriving Repr

namespace Number

/-- Words of 64 bits hold the numbers below `2 ^ 64`. -/
def wordLimit : Nat := Nat.pow 2 64

/-- Signed words of 64 bits reach down to `-2 ^ 63`. -/
def leastSigned : Int := -Int.ofNat (Nat.pow 2 63)

/-- The integers that a signed word holds. -/
def isSigned (value : Int) : Bool := leastSigned ≤ value && value < Nat.pow 2 63

/-- The integers that an unsigned word holds. -/
def isUnsigned (value : Int) : Bool := 0 ≤ value && value < wordLimit

/-- The exponent of a literal is a word of 32 bits, below `2 ^ 31`. -/
def exponentLimit : Nat := Nat.pow 2 31

def valueOfDigits (radix : Nat) (digits : List Nat) : Nat :=
  digits.foldl (fun value digit => value * radix + digit) 0

/-- Appends digits to a significand as long as it fits a word; the rest is left over. -/
def absorb (significand : Nat) : List Nat → Nat × List Nat
  | [] => (significand, [])
  | digit :: rest =>
    if significand * 10 + digit < wordLimit then absorb (significand * 10 + digit) rest
    else (significand, digit :: rest)

/-- The value of a literal. One without point and exponent is an integer if its value lies in
`[-2 ^ 63, 2 ^ 64)` and it is not a negative zero. All others are binary; whole digits that do not
fit a word only count as places, and fraction digits that do not fit are dropped. A magnitude above
the finite numbers has no value. -/
def ofLiteral? (literal : NumberLiteral) : Option Number :=
  let (whole, places) := absorb 0 literal.whole
  match literal.fraction, literal.exponent, places with
  | none, none, [] =>
    if literal.negative then
      if 0 < whole ∧ leastSigned ≤ -(whole : Int) then some (.int (-whole))
      else do
        let x ← Binary64.ofNat? whole
        some (.float ⟨true, x.significand, x.exponent⟩)
    else some (.int whole)
  | _, _, _ =>
    let fraction := literal.fraction.getD []
    let (significand, dropped) := absorb whole fraction
    let shift : Int := places.length - (fraction.length - dropped.length : Nat)
    let (down, digits) := literal.exponent.getD (false, [])
    let written := valueOfDigits 10 digits
    if exponentLimit ≤ written then
      if significand == 0 || down then some (.float (.zero literal.negative)) else none
    else do
      let start ← Binary64.ofNat? significand
      let x ← match shift + (if down then -(written : Int) else written) with
        | .ofNat k => start.scaleUp? k
        | .negSucc k => start.scaleDown? (k + 1)
      some (.float ⟨literal.negative, x.significand, x.exponent⟩)

end Number

end ApiLint
