/-! Finite binary floating point numbers of 64 bits, held as exact dyadic rationals. Every
operation computes its exact rational result and rounds it once, to nearest with ties to even. -/

namespace ApiLint

/-- The number `± significand * 2 ^ exponent`. A rounded number has a significand below `2 ^ 53`,
which is at least `2 ^ 52` unless the exponent is the least one, `-1074`. -/
structure Binary64 where
  negative : Bool
  significand : Nat
  exponent : Int
deriving DecidableEq, Repr, Inhabited

namespace Binary64

def leastExponent : Int := -1074

def greatestExponent : Int := 971

/-- The least significand that uses all binary places, `2 ^ 52`. -/
def leastNormal : Nat := Nat.pow 2 52

def zero (negative : Bool) : Binary64 := ⟨negative, 0, leastExponent⟩

def isZero (x : Binary64) : Bool := x.significand == 0

/-- Numeric equality, under which the two zeros are the same number. -/
def same (x y : Binary64) : Bool := x == y || x.isZero && y.isZero

/-- The quotient rounded to the nearest integer, a tie to the even one. -/
def roundedQuotient (num den : Nat) : Nat :=
  let quotient := num / den
  let remainder := num % den
  if den < 2 * remainder || (den == 2 * remainder && quotient % 2 == 1) then quotient + 1
  else quotient

/-- A power with a whole exponent, as a fraction. -/
def power (base : Nat) : Int → Nat × Nat
  | .ofNat k => (Nat.pow base k, 1)
  | .negSucc k => (1, Nat.pow base (k + 1))

/-- The quotient `num / den` measured in units of `2 ^ exponent`, as a fraction. -/
def scaled (num den : Nat) (exponent : Int) : Nat × Nat :=
  let (top, bottom) := power 2 exponent
  (num * bottom, den * top)

/-- The exponent of the greatest power of two that is at most `num / den`, both being positive. -/
def binaryOrder (num den : Nat) : Int :=
  let guess : Int := (num.log2 : Int) - den.log2
  let (n, d) := scaled num den guess
  if n < d then guess - 1 else guess

/-- Rounds `± num / den`; there is no result where the rounded magnitude has no finite number. -/
def ofRatio? (negative : Bool) (num den : Nat) : Option Binary64 :=
  if num == 0 || den == 0 then some (zero negative)
  else
    let exponent := max leastExponent (binaryOrder num den - 52)
    let (n, d) := scaled num den exponent
    let significand := roundedQuotient n d
    let (significand, exponent) :=
      if significand == 2 * leastNormal then (leastNormal, exponent + 1)
      else (significand, exponent)
    if greatestExponent < exponent then none else some ⟨negative, significand, exponent⟩

/-- The magnitude as a fraction. -/
def ratio (x : Binary64) : Nat × Nat := scaled x.significand 1 (-x.exponent)

def ofNat? (n : Nat) : Option Binary64 := ofRatio? false n 1

def mul? (x y : Binary64) : Option Binary64 :=
  let (a, b) := x.ratio
  let (c, d) := y.ratio
  ofRatio? (x.negative != y.negative) (a * c) (b * d)

def div? (x y : Binary64) : Option Binary64 :=
  let (a, b) := x.ratio
  let (c, d) := y.ratio
  ofRatio? (x.negative != y.negative) (a * d) (b * c)

end Binary64

end ApiLint
