import ApiLint.Yaml.Token.Property

/-! The tokens of a whole text. A key need not be marked: the place where one may start is kept
until a colon shows that it was a key, and its tokens are then put in at that place. A key of this
kind does not reach beyond its line, nor over more than 1024 octets. -/

namespace ApiLint.Yaml

/-- A place where a key may start. It has to be one where the indentation is that of a mapping. -/
structure KeyPlace where
  required : Bool
  /-- How many tokens stand before it. -/
  position : Nat
  cell : Cell

/-- The tokens so far, the indentations of the open block collections, and where a key may start, in
the innermost collection and in the flow collections around it. -/
structure Scan where
  tokens : Array Token := #[]
  indent : Int := -1
  outerIndents : List Int := []
  keyAllowed : Bool := true
  key : Option KeyPlace := none
  outerKeys : List (Option KeyPlace) := []

namespace Scan

def inFlow (scan : Scan) : Bool := !scan.outerKeys.isEmpty

def emit (scan : Scan) (token : Token) : Scan := { scan with tokens := scan.tokens.push token }

def allowKey (scan : Scan) (allowed : Bool) : Scan := { scan with keyAllowed := allowed }

/-- Puts a token before those from `position` on. -/
def insertAt (scan : Scan) (position : Nat) (token : Token) : Scan :=
  { scan with tokens := scan.tokens.insertIdxIfInBounds position token }

/-- Opens a block collection at a greater column than the innermost one. -/
def openBlock (scan : Scan) (column position : Nat) (token : Token) : Scan :=
  if !scan.inFlow && scan.indent < column then
    { scan.insertAt position token with
      indent := column, outerIndents := scan.indent :: scan.outerIndents }
  else scan

def openBlockHere (scan : Scan) (column : Nat) (token : Token) : Scan :=
  scan.openBlock column scan.tokens.size token

/-- Closes the block collections whose indentation is greater than `column`. -/
def closeBlocks (scan : Scan) (column : Int) : Scan :=
  if scan.inFlow then scan else go scan.tokens scan.indent scan.outerIndents
where
  go (tokens : Array Token) (indent : Int) : List Int → Scan
    | [] => { scan with tokens, indent, outerIndents := [] }
    | outer :: rest =>
      if column < indent then go (tokens.push .blockEnd) outer rest
      else { scan with tokens, indent, outerIndents := outer :: rest }

/-- Gives up the place of a key, which fails if there has to be one. -/
def dropKey? (scan : Scan) : Option Scan :=
  if scan.key.any KeyPlace.required then none else some { scan with key := none }

/-- Notes that a key may start at `cell`. -/
def noteKey? (scan : Scan) (cell : Cell) : Option Scan :=
  if scan.keyAllowed then do
    let required := !scan.inFlow && scan.indent == (cell.column : Int)
    let scan ← scan.dropKey?
    return { scan with key := some ⟨required, scan.tokens.size, cell⟩ }
  else some scan

/-- A colon at `cell` is too far from the place to make it a key. -/
def KeyPlace.isStale (place : KeyPlace) (cell : Cell) : Bool :=
  place.cell.line < cell.line || place.cell.index + 1024 < cell.index

/-- Gives up a place that has become stale. -/
def refresh? (cell : Cell) : Option KeyPlace → Option (Option KeyPlace)
  | none => some none
  | some place =>
    if KeyPlace.isStale place cell then (if place.required then none else some none)
    else some (some place)

def refreshKeys? (scan : Scan) (cell : Cell) : Option Scan := do
  let key ← refresh? cell scan.key
  let outerKeys ← scan.outerKeys.mapM (refresh? cell)
  return { scan with key, outerKeys }

def enterFlow (scan : Scan) : Scan :=
  { scan with key := none, outerKeys := scan.key :: scan.outerKeys }

def leaveFlow (scan : Scan) : Scan :=
  match scan.outerKeys with
  | [] => scan
  | key :: outerKeys => { scan with key, outerKeys }

/-- Skips blanks, comments and line breaks. A tab stops the search where a key may start, and a
byte order mark is skipped at the start of a line. Outside flow collections a key may start on each
new line. -/
def skipGap (scan : Scan) (inComment : Bool) : Source → Scan × Source
  | [] => (scan, [])
  | c :: rest =>
    if isLineBreak c.char then
      skipGap { scan with keyAllowed := scan.keyAllowed || !scan.inFlow } false rest
    else if inComment || (c.column == 0 && c.char == '\ufeff') || c.char == ' ' then
      skipGap scan inComment rest
    else if c.char == '\t' && (scan.inFlow || !scan.keyAllowed) then skipGap scan false rest
    else if c.char == '#' then skipGap scan true rest
    else (scan, c :: rest)

/-- Ends all block collections before a marker or a directive. -/
def closeAll? (scan : Scan) : Option Scan := do
  return (← (scan.closeBlocks (-1)).dropKey?).allowKey false

/-- The start of an entry outside flow collections: it needs a place where a key could start. -/
def openEntry? (scan : Scan) (column : Nat) (token : Token) : Option Scan :=
  if scan.inFlow then some scan
  else if scan.keyAllowed then some (scan.openBlockHere column token)
  else none

/-- A colon makes a key of what stands since the noted place; without one it follows a marked
key. -/
def colon? (scan : Scan) (column : Nat) : Option Scan :=
  match scan.key with
  | some place =>
    let scan := (scan.insertAt place.position .key).openBlock place.cell.column place.position
      .blockMappingStart
    some ({ scan with key := none }.allowKey false)
  | none => do
    let scan ← scan.openEntry? column .blockMappingStart
    return scan.allowKey !scan.inFlow

/-- A plain scalar starts neither with an indicator, nor with a dash before a blank; outside flow
collections a question mark or a colon may start one unless a gap follows. -/
def startsPlain (scan : Scan) (source : Source) : Bool :=
  match source.peek 0 with
  | none => false
  | some '-' => !(source.peek 1).any isBlank
  | some '?' | some ':' => !scan.inFlow && !source.gapAt 1
  | some c => !(isGap c || ",[]\x7b\x7d#&*!|>'\"%@\x60".toList.contains c)

/-- Reads the token that starts at `cell`. -/
def fetch? (scan : Scan) (cell : Cell) (rest : Source) : Option (Scan × Source) :=
  let source : Source := cell :: rest
  let beforeGap := source.gapAt 1
  if cell.column == 0 && cell.char == '%' then do
    let scan ← scan.closeAll?
    let (token, rest) ← readDirective? rest
    return (scan.emit token, rest)
  else if source.startsMarker '-' then do
    return ((← scan.closeAll?).emit .documentStart, rest.drop 2)
  else if source.startsMarker '.' then do
    return ((← scan.closeAll?).emit .documentEnd, rest.drop 2)
  else match cell.char with
  | '[' => do
    return (((← scan.noteKey? cell).enterFlow.allowKey true).emit .flowSequenceStart, rest)
  | '\x7b' => do
    return (((← scan.noteKey? cell).enterFlow.allowKey true).emit .flowMappingStart, rest)
  | ']' => do return (((← scan.dropKey?).leaveFlow.allowKey false).emit .flowSequenceEnd, rest)
  | '\x7d' => do return (((← scan.dropKey?).leaveFlow.allowKey false).emit .flowMappingEnd, rest)
  | ',' => do return (((← scan.dropKey?).allowKey true).emit .flowEntry, rest)
  | '*' => do
    let scan ← scan.noteKey? cell
    let (name, rest) ← readAnchorName? rest
    return ((scan.allowKey false).emit (.aliasOf name), rest)
  | '&' => do
    let scan ← scan.noteKey? cell
    let (name, rest) ← readAnchorName? rest
    return ((scan.allowKey false).emit (.anchor name), rest)
  | '!' => do
    let scan ← scan.noteKey? cell
    let (token, rest) ← readTag? source
    if tagEnds scan.inFlow rest then return ((scan.allowKey false).emit token, rest) else none
  | '\'' => quoted? true .singleQuoted
  | '"' => quoted? false .doubleQuoted
  | c => do
    if c == '-' && beforeGap then
      let scan ← scan.openEntry? cell.column .blockSequenceStart
      return (((← scan.dropKey?).allowKey true).emit .blockEntry, rest)
    else if c == '?' && (scan.inFlow || beforeGap) then
      let scan ← scan.openEntry? cell.column .blockMappingStart
      return (((← scan.dropKey?).allowKey !scan.inFlow).emit .key, rest)
    else if c == ':' && (scan.inFlow || beforeGap) then
      return ((← scan.colon? cell.column).emit .value, rest)
    else if (c == '|' || c == '>') && !scan.inFlow then
      let scan ← scan.dropKey?
      let (text, rest) ← readBlockScalar? (c == '>') scan.indent rest
      return ((scan.allowKey true).emit (.scalar (if c == '>' then .folded else .literal) text),
        rest)
    else if scan.startsPlain source then
      let scan ← scan.noteKey? cell
      let plain ← readPlain? ⟨scan.inFlow, (scan.indent + 1).toNat⟩ none [] source
      return ((scan.allowKey plain.endsLine).emit (.scalar .plain plain.text), plain.rest)
    else none
where
  quoted? (single : Bool) (style : Style) : Option (Scan × Source) := do
    let scan ← scan.noteKey? cell
    let (text, rest) ← readQuoted? single .word [] rest
    return ((scan.allowKey false).emit (.scalar style text), rest)

/-- Reads all tokens. Every token takes a character, so that the fuel is never used up. -/
def run? (scan : Scan) (source : Source) : Nat → Option (Array Token)
  | 0 => none
  | fuel + 1 =>
    match scan.skipGap false source with
    | (scan, []) => do return (← scan.closeAll?).tokens
    | (scan, cell :: rest) => do
      let scan ← scan.refreshKeys? cell
      let (scan, rest) ← (scan.closeBlocks cell.column).fetch? cell rest
      run? scan rest fuel

end Scan

/-- The tokens of a text. -/
def tokensOf? (text : String) : Option (List Token) := do
  let source ← Source.ofText? text
  let tokens ← Scan.run? {} source (source.length + 1)
  return tokens.toList

end ApiLint.Yaml
