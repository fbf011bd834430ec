import ApiLint.Json.Basic
import ApiLint.Number.Reading
import ApiLint.Text.Ascii

/-! Reading values from JSON text. Objects keep each key once, at its first position with its last
value. Unpaired surrogates and numbers beyond the finite ones have no value; they pass only where a
value is skipped, which looks at the syntax alone. -/

namespace ApiLint.Json

def isBlank (c : Char) : Bool := c == ' ' || c == '\t' || c == '\n' || c == '\r'

def skipBlanks (text : List Char) : List Char := text.dropWhile isBlank

/-- The characters that may follow a backslash, besides `u`. -/
def simpleEscapes : List (Char × Char) :=
  [('"', '"'), ('\\', '\\'), ('/', '/'), ('b', '\x08'), ('f', '\x0c'), ('n', '\n'), ('r', '\r'),
    ('t', '\t')]

def isHighSurrogate (unit : Nat) : Bool := 0xD800 ≤ unit && unit < 0xDC00

def isLowSurrogate (unit : Nat) : Bool := 0xDC00 ≤ unit && unit < 0xE000

/-- Reads up to the closing quote. With `strict` unset any four hexadecimal digits make an escape,
and a unit that is no character stands as U+FFFD. -/
def readString? (strict : Bool) (done : List Char) : List Char → Option (String × List Char)
  | [] => none
  | '"' :: rest => some (String.ofList done.reverse, rest)
  | '\\' :: 'u' :: a :: b :: c :: d :: rest => do
    let unit ← naturalOf? 16 [a, b, c, d]
    if isHighSurrogate unit then
      match rest with
      | '\\' :: 'u' :: e :: f :: g :: h :: rest =>
        let low ← naturalOf? 16 [e, f, g, h]
        if isLowSurrogate low then
          let code := 0x10000 + (unit - 0xD800) * 0x400 + (low - 0xDC00)
          readString? strict (Char.ofNat code :: done) rest
        else if strict then none
        else readString? strict ('\ufffd' :: '\ufffd' :: done) rest
      | rest => if strict then none else readString? strict ('\ufffd' :: done) rest
    else if isLowSurrogate unit then
      if strict then none else readString? strict ('\ufffd' :: done) rest
    else readString? strict (Char.ofNat unit :: done) rest
  | '\\' :: c :: rest => do
    let plain ← simpleEscapes.lookup c
    readString? strict (plain :: done) rest
  | c :: rest => if c.toNat < 0x20 then none else readString? strict (c :: done) rest

/-- Reads the exponent of a number, if one starts here. -/
def readExponent? : List Char → Option (Option (Bool × List Char) × List Char)
  | c :: rest =>
    if c == 'e' || c == 'E' then
      let (down, rest) := match rest with
        | '+' :: rest => (false, rest)
        | '-' :: rest => (true, rest)
        | rest => (false, rest)
      match leadingDigits rest with
      | ([], _) => none
      | (digits, rest) => some (some (down, digits), rest)
    else some (none, c :: rest)
  | [] => some (none, [])

/-- Reads the digits after a point, if one starts here. -/
def readFraction? : List Char → Option (Option (List Char) × List Char)
  | '.' :: rest =>
    match leadingDigits rest with
    | ([], _) => none
    | (digits, rest) => some (some digits, rest)
  | rest => some (none, rest)

/-- Reads a number as written. A zero is not followed by further whole digits. -/
def readLiteral? (text : List Char) : Option (NumberLiteral × List Char) := do
  let (negative, text) := match text with
    | '-' :: rest => (true, rest)
    | rest => (false, rest)
  let (whole, text) ← match leadingDigits text with
    | ([], _) => none
    | ('0' :: _ :: _, _) => none
    | read => some read
  let (fraction, text) ← readFraction? text
  let (exponent, text) ← readExponent? text
  let values (digits : List Char) : List Nat := digits.filterMap digitValue?
  return (⟨negative, values whole, fraction.map values, exponent.map fun (down, digits) =>
    (down, values digits)⟩, text)

/-- How a value is read: how many further collections may be opened, if there is a limit, and
whether each string and number must have a value. -/
structure Rules where
  room : Option Nat
  strict : Bool

/-- The rules inside one more collection, if there is room for it. -/
def Rules.enter? (rules : Rules) : Option Rules :=
  match rules.room with
  | none => some rules
  | some 0 => none
  | some (room + 1) => some { rules with room := some room }

/-- Reads a key and the colon after it. -/
def readKey? (strict : Bool) (text : List Char) : Option (String × List Char) :=
  match skipBlanks text with
  | '"' :: rest => do
    let (key, rest) ← readString? strict [] rest
    match skipBlanks rest with
    | ':' :: rest => return (key, rest)
    | _ => none
  | _ => none

mutual

/-- Reads one value. The fuel bounds the number of steps and is larger than the text. -/
def readValue? (fuel : Nat) (rules : Rules) (text : List Char) : Option (Json × List Char) :=
  match fuel with
  | 0 => none
  | fuel + 1 =>
    match skipBlanks text with
    | 'n' :: 'u' :: 'l' :: 'l' :: rest => some (.null, rest)
    | 't' :: 'r' :: 'u' :: 'e' :: rest => some (.bool true, rest)
    | 'f' :: 'a' :: 'l' :: 's' :: 'e' :: rest => some (.bool false, rest)
    | '"' :: rest => do
      let (value, rest) ← readString? rules.strict [] rest
      return (.string value, rest)
    | '[' :: rest => do
      let rules ← rules.enter?
      match skipBlanks rest with
      | ']' :: rest => return (.array [], rest)
      | rest => readElements? fuel rules [] rest
    | '\x7b' :: rest => do
      let rules ← rules.enter?
      match skipBlanks rest with
      | '\x7d' :: rest => return (.object [], rest)
      | rest => readMembers? fuel rules [] rest
    | rest => do
      let (literal, rest) ← readLiteral? rest
      match Number.ofLiteral? literal with
      | some value => return (.number value, rest)
      | none => if rules.strict then none else return (.null, rest)

def readElements? (fuel : Nat) (rules : Rules) (done : List Json) (text : List Char) :
    Option (Json × List Char) :=
  match fuel with
  | 0 => none
  | fuel + 1 => do
    let (value, rest) ← readValue? fuel rules text
    match skipBlanks rest with
    | ',' :: rest => readElements? fuel rules (value :: done) rest
    | ']' :: rest => return (.array (value :: done).reverse, rest)
    | _ => none

def readMembers? (fuel : Nat) (rules : Rules) (done : List (String × Json)) (text : List Char) :
    Option (Json × List Char) :=
  match fuel with
  | 0 => none
  | fuel + 1 => do
    let (key, rest) ← readKey? rules.strict text
    let (value, rest) ← readValue? fuel rules rest
    match skipBlanks rest with
    | ',' :: rest => readMembers? fuel rules ((key, value) :: done) rest
    | '\x7d' :: rest =>
      return (.object (Entries.ofPairs ((key, value) :: done).reverse), rest)
    | _ => none

end

/-- Reads one value off the front of a text. -/
def read? (rules : Rules) (text : List Char) : Option (Json × List Char) :=
  readValue? (2 * text.length + 2) rules text

/-- A document may open at most this many collections within each other. -/
def greatestNesting : Nat := 127

/-- A whole text that is one value of bounded nesting. -/
def parse? (text : String) : Option Json :=
  match read? ⟨some greatestNesting, true⟩ text.toList with
  | some (value, rest) => if skipBlanks rest == [] then some value else none
  | none => none

/-- The value that a text starts with, nested without bound; the rest of the text is not read. -/
def parseLeading? (text : String) : Option Json :=
  (read? ⟨none, true⟩ text.toList).map (·.1)

end ApiLint.Json
