import ApiLint.Text.Ascii
import ApiLint.Yaml.Source
import ApiLint.Yaml.Token

/-! The text of scalars. Line breaks between words fold: a single one becomes a space, and of
several the first one is dropped. Literal blocks keep them, and separators of Unicode never fold. -/

namespace ApiLint.Yaml

/-- What stands between two words of a scalar: blanks of one line, or line breaks, the first of
which is missing where it was escaped. -/
inductive Gap where
  | blanks (text : List Char)
  | breaks (first : Option Char) (more : List Char)
deriving Repr

namespace Gap

/-- Appends a blank or a line break. Blanks beside a line break are dropped. -/
def extend (gap : Gap) (c : Char) : Gap :=
  match gap with
  | blanks text => if isLineBreak c then breaks (some c) [] else blanks (text ++ [c])
  | breaks first more => if isLineBreak c then breaks first (more ++ [c]) else gap

def crossesLine : Gap → Bool
  | blanks _ => false
  | breaks _ _ => true

/-- The folded text. -/
def text : Gap → List Char
  | blanks text => text
  | breaks (some '\n') [] => [' ']
  | breaks (some '\n') more => more
  | breaks first more => first.toList ++ more

end Gap

/-- The escapes of one character. -/
def simpleEscapes : List (Char × Char) :=
  [('0', '\x00'), ('a', '\x07'), ('b', '\x08'), ('t', '\t'), ('\t', '\t'), ('n', '\n'),
    ('v', '\x0b'), ('f', '\x0c'), ('r', '\r'), ('e', '\x1b'), (' ', ' '), ('"', '"'), ('/', '/'),
    ('\\', '\\'), ('N', '\x85'), ('_', '\xa0'), ('L', '\u2028'), ('P', '\u2029')]

/-- The escapes of a code point, with their numbers of hexadecimal digits. -/
def codeEscapes : List (Char × Nat) := [('x', 2), ('u', 4), ('U', 8)]

/-- What a quoted scalar is in the middle of: a word, a gap, an escape that has just begun, an
escape with digits to come, or a single quote that closes the scalar unless another one follows. -/
inductive QuotedState where
  | word
  | gap (gap : Gap)
  | backslash
  | code (left value : Nat)
  | quote

/-- A character goes into the scalar, or the scalar is closed, by this character or before it. -/
inductive QuotedStep where
  | more (state : QuotedState) (done : List Char)
  | closed (done : List Char) (inclusive : Bool)

/-- A character at the start or inside of a word; `done` is the text so far, reversed. -/
def wordStep (single : Bool) (done : List Char) (c : Char) : QuotedStep :=
  if isGap c then .more (.gap ((Gap.blanks []).extend c)) done
  else if single && c == '\'' then .more .quote done
  else if !single && c == '"' then .closed done true
  else if !single && c == '\\' then .more .backslash done
  else .more .word (c :: done)

def quotedStep? (single : Bool) (done : List Char) (c : Char) : QuotedState → Option QuotedStep
  | .word => some (wordStep single done c)
  | .gap gap =>
    if isGap c then some (.more (.gap (gap.extend c)) done)
    else some (wordStep single (gap.text.reverse ++ done) c)
  | .backslash =>
    if isLineBreak c then some (.more (.gap (.breaks none [])) done)
    else
      match simpleEscapes.lookup c with
      | some plain => some (.more .word (plain :: done))
      | none => (codeEscapes.lookup c).map fun digits => .more (.code digits 0) done
  | .code left value => do
    let value := value * 16 + (← digitBelow? 16 c)
    if 1 < left then return .more (.code (left - 1) value) done
    else if value.isValidChar then return .more .word (Char.ofNat value :: done)
    else none
  | .quote => some (if c == '\'' then .more .word (c :: done) else .closed done false)

/-- Reads a quoted scalar to its end. No line of it may look like a document marker. -/
def readQuoted? (single : Bool) (state : QuotedState) (done : List Char) :
    Source → Option (String × Source)
  | [] =>
    match state with
    | .quote => some (String.ofList done.reverse, [])
    | _ => none
  | c :: rest =>
    if Source.startsDocumentMarker (c :: rest) then none
    else
      match quotedStep? single done c.char state with
      | none => none
      | some (.more state done) => readQuoted? single state done rest
      | some (.closed done true) => some (String.ofList done.reverse, rest)
      | some (.closed done false) => some (String.ofList done.reverse, c :: rest)

/-- Where a plain scalar stands. -/
structure PlainContext where
  inFlow : Bool
  indent : Nat

/-- A plain scalar that has been read. It may end a line, after which a key can start. -/
structure PlainScalar where
  text : String
  endsLine : Bool
  rest : Source

/-- The brackets and commas of flow collections. -/
def isFlowIndicator (c : Char) : Bool := [',', '[', ']', '\x7b', '\x7d'].contains c

/-- A plain scalar ends before a colon that is followed by a gap, and in a flow collection before an
indicator of such a collection. -/
def endsPlainWord (inFlow : Bool) (source : Source) : Bool :=
  (source.peek 0 == some ':' && source.gapAt 1) ||
    (inFlow && (source.peek 0).any isFlowIndicator)

/-- In a flow collection, a colon before an indicator is neither part of a scalar nor its end. -/
def ambiguousColon (source : Source) : Bool :=
  source.peek 0 == some ':' &&
    (source.peek 1).any fun c => isFlowIndicator c || c == '?'

/-- Between words a plain scalar ends at a lesser indentation, a comment or a document marker. -/
def endsPlainGap (context : PlainContext) (source : Source) : Bool :=
  (!context.inFlow && source.column < context.indent) || source.peek 0 == some '#' ||
    source.startsDocumentMarker

/-- Reads a plain scalar. A tab may not take the place of indentation. -/
def readPlain? (context : PlainContext) (gap : Option Gap) (done : List Char) :
    Source → Option PlainScalar
  | [] => some (finish [])
  | c :: rest =>
    if isGap c.char then
      if c.char == '\t' && gap.any Gap.crossesLine && c.column < context.indent then none
      else readPlain? context (some ((gap.getD (.blanks [])).extend c.char)) done rest
    else if gap.isSome && endsPlainGap context (c :: rest) then some (finish (c :: rest))
    else if context.inFlow && ambiguousColon (c :: rest) then none
    else if endsPlainWord context.inFlow (c :: rest) then some (finish (c :: rest))
    else readPlain? context none (c.char :: ((gap.map Gap.text).getD []).reverse ++ done) rest
where
  finish (rest : Source) : PlainScalar :=
    ⟨String.ofList done.reverse, gap.any Gap.crossesLine, rest⟩

/-- What becomes of the line breaks at the end of a block scalar. -/
inductive Chomping where
  | strip
  | clip
  | keep
deriving DecidableEq, Repr

/-- The first line of a block scalar: how it ends, and how far its content is indented beyond the
collection around it, if that is given. -/
structure BlockHeader where
  chomping : Chomping
  increment : Option Nat

def chompingOf? (c : Char) : Option Chomping :=
  if c == '+' then some .keep else if c == '-' then some .strip else none

/-- A digit of an indentation, which is not zero. -/
def incrementOf? (c : Char) : Option Nat := (digitBelow? 10 c).filter (0 < ·)

/-- Reads the indicators after the one that starts a block scalar, in either order. -/
def readBlockIndicators? (source : Source) : Option (BlockHeader × Source) :=
  match source with
  | [] => some (⟨.clip, none⟩, [])
  | c :: rest =>
    match chompingOf? c.char with
    | some chomping =>
      match rest with
      | [] => some (⟨chomping, none⟩, [])
      | d :: after =>
        if isDecimalDigit d.char then
          (incrementOf? d.char).map fun increment => (⟨chomping, some increment⟩, after)
        else some (⟨chomping, none⟩, rest)
    | none =>
      if isDecimalDigit c.char then do
        let increment ← incrementOf? c.char
        match rest with
        | [] => return (⟨.clip, some increment⟩, [])
        | d :: after =>
          match chompingOf? d.char with
          | some chomping => return (⟨chomping, some increment⟩, after)
          | none => return (⟨.clip, some increment⟩, rest)
      else some (⟨.clip, none⟩, source)

/-- Blanks and a comment to the end of a line, and the line break. -/
def finishLine? (source : Source) : Option Source :=
  let rest : Source := source.dropWhile fun c => isBlank c.char
  let rest : Source :=
    if rest.peek 0 == some '#' then rest.dropWhile fun c => !isLineBreak c.char else rest
  match rest with
  | [] => some []
  | c :: rest => if isLineBreak c.char then some rest else none

/-- How far a block scalar has been read. The text is reversed, `lineBreak` ends the last line with
content, and `more` holds the breaks of the empty lines after it. -/
structure BlockState where
  /-- The indentation of the content, once it is known. -/
  indent : Option Nat
  /-- The deepest indentation so far, while it is not known. -/
  deepest : Nat
  inLine : Bool
  text : List Char
  lineBreak : Option Char
  more : List Char
  /-- The last line with content starts with a blank. -/
  indented : Bool

namespace BlockState

/-- Starts a line of content. In a folded scalar a line feed between two lines that do not start
with blanks becomes a space, or nothing before empty lines. -/
def startLine (state : BlockState) (folded : Bool) (indent : Nat) (c : Char) : BlockState :=
  let folds := folded && state.lineBreak == some '\n' && !state.indented && !isBlank c
  let joint : List Char :=
    if folds then (if state.more.isEmpty then [' '] else []) else state.lineBreak.toList
  { state with
    indent := some indent, inLine := true, lineBreak := none, more := [], indented := isBlank c,
    text := c :: (joint ++ state.more).reverse ++ state.text }

def finish (state : BlockState) (chomping : Chomping) : String :=
  let tail := match chomping with
    | .strip => []
    | .clip => state.lineBreak.toList
    | .keep => state.lineBreak.toList ++ state.more
  String.ofList (state.text.reverse ++ tail)

end BlockState

/-- Reads the lines of a block scalar up to the first one that is not empty and not indented as the
content is. The content starts no further left than `margin`. -/
def readBlock? (folded : Bool) (chomping : Chomping) (margin : Nat) (state : BlockState) :
    Source → Option (String × Source)
  | [] => some (state.finish chomping, [])
  | c :: rest =>
    if state.inLine then
      if isLineBreak c.char then
        readBlock? folded chomping margin
          { state with inLine := false, lineBreak := some c.char } rest
      else readBlock? folded chomping margin { state with text := c.char :: state.text } rest
    else
      let outside := state.indent.all (c.column < ·)
      if outside && c.char == ' ' then readBlock? folded chomping margin state rest
      else if outside && c.char == '\t' then none
      else
        let deepest := max state.deepest c.column
        if isLineBreak c.char then
          readBlock? folded chomping margin
            { state with deepest, more := state.more ++ [c.char] } rest
        else
          let indent := state.indent.getD (max deepest margin)
          if c.column == indent then
            readBlock? folded chomping margin (state.startLine folded indent c.char) rest
          else some (state.finish chomping, c :: rest)

/-- Reads a block scalar after its first indicator, in a collection with the given indentation. -/
def readBlockScalar? (folded : Bool) (indent : Int) (source : Source) :
    Option (String × Source) := do
  let (header, rest) ← readBlockIndicators? source
  let rest ← finishLine? rest
  let given := header.increment.map fun increment => (max indent 0).toNat + increment
  readBlock? folded header.chomping (max (indent + 1) 1).toNat
    ⟨given, 0, false, [], none, [], false⟩ rest

end ApiLint.Yaml
