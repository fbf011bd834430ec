import ApiLint.Text.Ascii
import ApiLint.Yaml.Token.Scalar

/-! Anchors, aliases, tags and directives. Tags are octets, since their escapes may spell any. -/

namespace ApiLint.Yaml

def isNameChar (c : Char) : Bool := c.isAlphanum || c == '_' || c == '-'

/-- The characters of a name, and what follows them. -/
def readName (source : Source) : String × Source :=
  let (name, rest) := source.span fun c => isNameChar c.char
  (String.ofList (name.map Cell.char), rest)

/-- The name of an anchor or alias, which a gap or one of a few indicators ends. -/
def readAnchorName? (source : Source) : Option (String × Source) :=
  let (name, rest) := readName source
  if name ≠ "" ∧ (rest.gapAt 0 || (rest.peek 0).any "?:,]\x7d%@\x60".toList.contains) then
    some (name, rest)
  else none

/-- The characters that stand for themselves in a tag; `flow` adds those that end a tag inside flow
collections. -/
def isUriChar (flow : Bool) (c : Char) : Bool :=
  isNameChar c || ";/?:@&=+$.!~*'()".toList.contains c || (flow && ",[]".toList.contains c)

/-- How many octets the character has that starts with the given one. -/
def octetCount? (octet : Nat) : Option Nat :=
  if octet < 0x80 then some 1
  else if 0xC0 ≤ octet ∧ octet < 0xE0 then some 2
  else if 0xE0 ≤ octet ∧ octet < 0xF0 then some 3
  else if 0xF0 ≤ octet ∧ octet < 0xF8 then some 4
  else none

/-- Reads the octets of a tag. An escape spells one octet, and `due` more escapes have to follow
where the octets so far end in the middle of a character. -/
def readUri? (flow : Bool) (due : Nat) (done : List UInt8) :
    Source → Option (List UInt8 × Source)
  | c :: rest =>
    if c.char == '%' then
      match rest with
      | a :: b :: rest => do
        let octet ← naturalOf? 16 [a.char, b.char]
        let due ←
          if due = 0 then (octetCount? octet).map (· - 1)
          else if 0x80 ≤ octet ∧ octet < 0xC0 then some (due - 1)
          else none
        readUri? flow due (octet.toUInt8 :: done) rest
      | _ => none
    else if 0 < due then none
    else if isUriChar flow c.char then readUri? flow 0 (c.char.toNat.toUInt8 :: done) rest
    else some (done.reverse, c :: rest)
  | [] => if 0 < due then none else some (done.reverse, [])

/-- A zero octet ends a tag. -/
def untilZero (octets : List UInt8) : List UInt8 := octets.takeWhile (· ≠ 0)

/-- The octets of a tag, at least one as written. -/
def readFilledUri? (flow : Bool) (source : Source) : Option (List UInt8 × Source) := do
  let (octets, rest) ← readUri? flow 0 [] source
  if octets.isEmpty then none else return (untilZero octets, rest)

/-- An exclamation mark, a name, and a second mark if there is one; tells whether there is. -/
def readHandle? (source : Source) : Option (String × Bool × Source) :=
  if source.peek 0 ≠ some '!' then none
  else
    let (name, rest) := readName (source.drop 1)
    if rest.peek 0 = some '!' then some (name, true, rest.drop 1) else some (name, false, rest)

/-- Reads a tag from its exclamation mark on. A tag in angle brackets is taken as it is; else a
handle in two marks is looked up later, and all other tags belong to the handle of one mark. The
mark alone is a tag of its own. -/
def readTag? (source : Source) : Option (Token × Source) :=
  if source.peek 1 = some '<' then do
    let (octets, rest) ← readFilledUri? true (source.drop 2)
    if rest.peek 0 = some '>' then return (.tag "" octets, rest.drop 1) else none
  else do
    let (name, closed, rest) ← readHandle? source
    if closed then
      let (suffix, rest) ← readFilledUri? false rest
      return (.tag ("!" ++ name ++ "!") suffix, rest)
    else
      let (tail, rest) ← readUri? false 0 [] rest
      let suffix := name.toUTF8.toList ++ untilZero tail
      if suffix.isEmpty then return (.tag "" "!".toUTF8.toList, rest)
      else return (.tag "!" suffix, rest)

/-- A tag ends at a gap, or in a flow collection at a comma. -/
def tagEnds (inFlow : Bool) (rest : Source) : Bool :=
  rest.gapAt 0 || (inFlow && rest.peek 0 == some ',')

def skipBlanks (source : Source) : Source := source.dropWhile fun c => isBlank c.char

/-- A number of at most nine digits. -/
def readShortNumber? (source : Source) : Option (Nat × Source) := do
  let (digits, rest) := source.span fun c => isDecimalDigit c.char
  if 9 < digits.length then none else return (← naturalOf? 10 (digits.map Cell.char), rest)

def readVersion? (source : Source) : Option (Token × Source) := do
  let (major, rest) ← readShortNumber? source
  if rest.peek 0 ≠ some '.' then none
  else
    let (minor, rest) ← readShortNumber? (rest.drop 1)
    return (.version major minor, rest)

def readTagHandle? (source : Source) : Option (Token × Source) := do
  let (name, closed, rest) ← readHandle? source
  let handle ← if closed then some ("!" ++ name ++ "!") else if name = "" then some "!" else none
  if (rest.peek 0).any isBlank then
    let (octets, rest) ← readFilledUri? true (skipBlanks rest)
    if rest.gapAt 0 then return (.tagHandle handle octets, rest) else none
  else none

/-- Reads a line that starts with a percent sign, from behind the sign. -/
def readDirective? (source : Source) : Option (Token × Source) := do
  let (name, rest) := readName source
  if rest.gapAt 0 then
    let (token, rest) ←
      if name = "YAML" then readVersion? (skipBlanks rest)
      else if name = "TAG" then readTagHandle? (skipBlanks rest)
      else none
    return (token, ← finishLine? rest)
  else none

end ApiLint.Yaml
