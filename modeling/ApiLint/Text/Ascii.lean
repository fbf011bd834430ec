/-! Letters and digits of ASCII. Other characters have no case and no digit value here. -/

namespace ApiLint

/-- Lower-cases the letters `A` to `Z` and keeps every other character. -/
def asciiLower (text : String) : String := text.map Char.toLower

/-- The value of a digit in bases up to sixteen, in either case. -/
def digitValue? (c : Char) : Option Nat :=
  if '0' ≤ c ∧ c ≤ '9' then some (c.toNat - '0'.toNat)
  else if 'a' ≤ c ∧ c ≤ 'f' then some (c.toNat - 'a'.toNat + 10)
  else if 'A' ≤ c ∧ c ≤ 'F' then some (c.toNat - 'A'.toNat + 10)
  else none

/-- The value of a digit below `radix`. -/
def digitBelow? (radix : Nat) (c : Char) : Option Nat := (digitValue? c).filter (· < radix)

/-- The number written by a nonempty list of digits below `radix`. -/
def naturalOf? (radix : Nat) (digits : List Char) : Option Nat :=
  if digits.isEmpty then none
  else digits.foldlM (fun value c => (digitBelow? radix c).map (value * radix + ·)) 0

def isDecimalDigit (c : Char) : Bool := '0' ≤ c ∧ c ≤ '9'

/-- The leading digits of a text, and what follows them. -/
def leadingDigits (text : List Char) : List Char × List Char := text.span isDecimalDigit

end ApiLint
