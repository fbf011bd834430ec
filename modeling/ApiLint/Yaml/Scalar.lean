import ApiLint.Number.Reading
import ApiLint.Text.Ascii
import ApiLint.Yaml.Tag

/-! The value of a scalar's text. A plain scalar is a null, a truth value, an integer or a float if
its text spells one, and else a string. -/

namespace ApiLint.Yaml

inductive FloatValue where
  | finite (value : Binary64)
  | infinity (negative : Bool)
  | nan
deriving DecidableEq, Repr

inductive Scalar where
  | null
  | bool (value : Bool)
  | int (value : Int)
  | float (value : FloatValue)
  | string (text : String)
deriving DecidableEq, Repr, Inhabited

namespace FloatValue

/-- Numeric equality; not-a-number equals itself here. -/
def same : FloatValue → FloatValue → Bool
  | finite x, finite y => x.same y
  | infinity x, infinity y => x == y
  | nan, nan => true
  | _, _ => false

def text : FloatValue → String
  | finite value => value.text
  | infinity negative => if negative then "-.inf" else ".inf"
  | nan => ".nan"

end FloatValue

namespace Scalar

/-- Equality of keys: integers and floats are never equal to each other. -/
def same : Scalar → Scalar → Bool
  | float x, float y => x.same y
  | x, y => x == y

end Scalar

/-- A sign at the front, and what follows it. -/
def splitSign : List Char → Option Char × List Char
  | '+' :: rest => (some '+', rest)
  | '-' :: rest => (some '-', rest)
  | rest => (none, rest)

/-- Digits that start with a superfluous zero. -/
def hasLeadingZero : List Char → Bool
  | '0' :: c :: rest => (c :: rest).all isDecimalDigit
  | _ => false

/-- The magnitude of an integer: hexadecimal, octal, binary, or decimal without leading zeros. -/
def magnitude? : List Char → Option Nat
  | '0' :: 'x' :: digits => naturalOf? 16 digits
  | '0' :: 'o' :: digits => naturalOf? 8 digits
  | '0' :: 'b' :: digits => naturalOf? 2 digits
  | digits => if hasLeadingZero digits then none else naturalOf? 10 digits

/-- An integer as written, of any size. -/
def integer? (text : List Char) : Option Int :=
  let (sign, rest) := splitSign text
  (magnitude? rest).map fun n => if sign == some '-' then -(n : Int) else n

/-- The digits and the decimal exponent of a number with optional point and exponent. -/
def decimal? (text : List Char) : Option Decimal := do
  let (whole, rest) := leadingDigits text
  let (fraction, rest) := match rest with
    | '.' :: rest => leadingDigits rest
    | rest => ([], rest)
  if whole.isEmpty && fraction.isEmpty then none
  let shift ← match rest with
    | [] => some 0
    | c :: rest =>
      if c == 'e' || c == 'E' then
        let (sign, digits) := splitSign rest
        (naturalOf? 10 digits).map fun n => if sign == some '-' then -(n : Int) else n
      else none
  let digits ← naturalOf? 10 (whole ++ fraction)
  return ⟨digits, shift - fraction.length⟩

def infinityWords : List String := [".inf", ".Inf", ".INF"]

def nanWords : List String := [".nan", ".NaN", ".NAN"]

/-- A float as written. A number beyond the finite ones is none. -/
def float? (text : List Char) : Option FloatValue :=
  let (sign, rest) := splitSign text
  if infinityWords.contains (String.ofList rest) then some (.infinity (sign == some '-'))
  else if sign.isNone && nanWords.contains (String.ofList rest) then some .nan
  else do
    let decimal ← decimal? rest
    let value ← Binary64.ofDecimal? (sign == some '-') decimal.digits decimal.exponent
    return .finite value

def bool? (text : String) : Option Bool :=
  if ["true", "True", "TRUE"].contains text then some true
  else if ["false", "False", "FALSE"].contains text then some false
  else none

def isNullWord (text : String) : Bool := ["null", "Null", "NULL", "~"].contains text

/-- What an integer as written stands for: itself if it fits 64 bits, and nothing that could be
represented if it only fits 128 bits. Longer ones are no integers. -/
inductive IntegerReading where
  | fits (value : Int)
  | tooWide
  | none

def readInteger (text : List Char) : IntegerReading :=
  match integer? text with
  | Option.none => .none
  | some value =>
    if Number.leastSigned ≤ value ∧ value < Number.wordLimit then .fits value
    else if -Int.ofNat (Nat.pow 2 127) ≤ value ∧ value < Nat.pow 2 128 then .tooWide
    else .none

namespace Scalar

/-- The value of a plain scalar; an integer that fits 128 bits but not 64 has none. -/
def ofPlain? (text : String) : Option Scalar :=
  let chars := text.toList
  if text = "" || isNullWord text then some .null
  else match bool? text with
  | some value => some (.bool value)
  | none =>
    match readInteger chars with
    | .fits value => some (.int value)
    | .tooWide => none
    | .none =>
      if hasLeadingZero (splitSign chars).2 then some (.string text)
      else some (((float? chars).map Scalar.float).getD (.string text))

/-- The value of a text that has to be of a core type. -/
def ofCore? (type : CoreType) (text : String) : Option Scalar :=
  match type with
  | .null => if isNullWord text then some .null else none
  | .bool => (bool? text).map .bool
  | .int =>
    match readInteger text.toList with
    | .fits value => some (.int value)
    | _ => none
  | .float => (float? text.toList).map .float

/-- The value of a scalar by its tag and by whether its text is plain. -/
def ofText? (tag : Option Tag) (plain : Bool) (text : String) : Option Scalar :=
  match tag with
  | some (.core type) => ofCore? type text
  | some tag => if plain && tag.keepsPlain then ofPlain? text else some (.string text)
  | none => if plain then ofPlain? text else some (.string text)

end Scalar

end ApiLint.Yaml
