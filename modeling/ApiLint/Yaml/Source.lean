/-! The characters of a YAML text and where they stand. A carriage return, a next-line character and
the pair of carriage return and line feed are read as a line feed; the two Unicode separators break
lines too, but stay themselves. -/

namespace ApiLint.Yaml

/-- A character and its place. The index counts the octets before it, the column counts
characters. -/
structure Cell where
  char : Char
  index : Nat
  line : Nat
  column : Nat
deriving Repr

/-- What is left to be read. -/
abbrev Source := List Cell

def isLineBreak (c : Char) : Bool := c == '\n' || c == '\u2028' || c == '\u2029'

def isBlank (c : Char) : Bool := c == ' ' || c == '\t'

def isGap (c : Char) : Bool := isBlank c || isLineBreak c

/-- The characters that may stand anywhere in a text. -/
def isPrintable (c : Char) : Bool :=
  c == '\t' || c == '\n' || c == '\r' || (' ' ≤ c && c ≤ '~') || c == '\x85' ||
    ('\xa0' ≤ c && c ≤ '\ud7ff') || ('\ue000' ≤ c && c ≤ '\ufffd') || 0x10000 ≤ c.toNat

namespace Source

def readFrom (index line column : Nat) : List Char → Source
  | [] => []
  | '\r' :: '\n' :: rest => ⟨'\n', index, line, column⟩ :: readFrom (index + 2) (line + 1) 0 rest
  | c :: rest =>
    let next := index + c.utf8Size
    let c := if c == '\r' || c == '\x85' then '\n' else c
    if isLineBreak c then ⟨c, index, line, column⟩ :: readFrom next (line + 1) 0 rest
    else ⟨c, index, line, column⟩ :: readFrom next line (column + 1) rest

/-- The cells of a text, unless one of its characters may not stand in a text. -/
def ofText? (text : String) : Option Source :=
  let chars := text.toList
  if chars.all isPrintable then some (readFrom 0 0 0 chars) else none

/-- The character `offset` places ahead; none after the end. -/
def peek (source : Source) (offset : Nat) : Option Char := source[offset]?.map Cell.char

/-- The column of the next character. -/
def column (source : Source) : Nat := (source.head?.map Cell.column).getD 0

/-- A gap or the end of the text is `offset` places ahead. -/
def gapAt (source : Source) (offset : Nat) : Bool := (source.peek offset).all isGap

/-- Three equal characters at the start of a line, followed by a gap. -/
def startsMarker (source : Source) (mark : Char) : Bool :=
  source.column == 0 && source.peek 0 == some mark && source.peek 1 == some mark &&
    source.peek 2 == some mark && source.gapAt 3

/-- A line that starts or ends a document. -/
def startsDocumentMarker (source : Source) : Bool :=
  source.startsMarker '-' || source.startsMarker '.'

end Source

end ApiLint.Yaml
