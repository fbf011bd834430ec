import ApiLint.Environment.Basic
import ApiLint.Text.Alphanumeric
import ApiLint.Text.Blank

/-! Variables from a file of assignments. Quotes and backslashes continue an assignment over line
breaks. Reading ends at the first malformed assignment, and what is set already stays. An assignment
that cannot be carried out leaves no environment at all. -/

namespace ApiLint.Environment

/-- What an assignment is in the middle of, for where it ends. -/
inductive QuoteState where
  | complete
  | escape
  | single
  | singleEscape
  | double
  | doubleEscape
  | blank
  | comment
deriving DecidableEq, Repr

/-- The state after a character. A single blank before `#` starts a comment. -/
def QuoteState.next (state : QuoteState) (c : Char) : QuoteState :=
  let outside : QuoteState :=
    match c with
    | '\\' => .escape
    | '"' => .double
    | '\'' => .single
    | _ => .complete
  match state with
  | .complete => if isWhiteSpace c && c ≠ '\n' && c ≠ '\r' then .blank else outside
  | .blank => if c = '#' then .comment else outside
  | .escape => .complete
  | .single => if c = '\\' then .singleEscape else if c = '\'' then .complete else .single
  | .singleEscape => .single
  | .double => if c = '\\' then .doubleEscape else if c = '"' then .complete else .double
  | .doubleEscape => .double
  | .comment => .comment

/-- The state at the end of a line, and the line up to a comment. -/
def scanLine (state : QuoteState) (done : List Char) : List Char → QuoteState × List Char
  | [] => (state, done.reverse)
  | c :: rest =>
    match state.next c with
    | .comment => (.comment, done.reverse)
    | state => scanLine state (c :: done) rest

def trimStart (text : List Char) : List Char := text.dropWhile isWhiteSpace

def trimEnd (text : List Char) : List Char := (trimStart text.reverse).reverse

/-- The assignments as written, comments removed. None stands for one that does not end. -/
def logicalLines (state : QuoteState) (before : List Char) :
    List (List Char) → List (Option (List Char))
  | [] => if state = .complete then [] else [none]
  | line :: rest =>
    if (trimStart (before ++ line)).head? = some '#' then some [] :: logicalLines .complete [] rest
    else
      match scanLine state [] line with
      | (.complete, _) => some (before ++ line) :: logicalLines .complete [] rest
      | (.comment, kept) => some (before ++ kept) :: logicalLines .complete [] rest
      | (state, _) => logicalLines state (before ++ line) rest

/-- How far a value has been read. -/
inductive ValueState where
  /-- Outside or inside double quotes. -/
  | text (double : Bool)
  | escape (double : Bool)
  | single
  /-- A name after a dollar sign, reversed; braces around it need an end. -/
  | reference (double braces : Bool) (name : List Char)
  /-- Only blanks or a comment may follow. -/
  | ended
  /-- A comment. -/
  | closed

/-- The value of a variable, empty if it is not set. The name is reversed. -/
def substitute (environment : Environment) (name : List Char) : List Char :=
  ((environment.value? (String.ofList name.reverse)).getD "").toList

/-- The state after a character, and what the character adds to the value. -/
def ValueState.next? (environment : Environment) (c : Char) :
    ValueState → Option (ValueState × List Char)
  | .closed => some (.closed, [])
  | .ended =>
    if c = ' ' ∨ c = '\t' then some (.ended, [])
    else if c = '#' then some (.closed, [])
    else none
  | .escape double =>
    if "\\'\"$ ".toList.contains c then some (.text double, [c])
    else if c = 'n' then some (.text double, ['\n'])
    else none
  | .single => if c = '\'' then some (.text false, []) else some (.single, [c])
  | .reference double braces name =>
    if isAlphanumeric c then some (.reference double braces (c :: name), [])
    else if braces then
      if c = '\x7d' then some (.text double, substitute environment name)
      else some (.reference double true (c :: name), [])
    else if c = '\x7b' ∧ name = [] then some (.reference double true [], [])
    else if c = '$' then some (.reference double false [], substitute environment name)
    else some (.text double, substitute environment name ++ [c])
  | .text double =>
    if c = '$' then some (.reference double false [], [])
    else if c = '"' then some (.text !double, [])
    else if c = '\\' then some (.escape double, [])
    else if double then some (.text true, [c])
    else if c = '\'' then some (.single, [])
    else if c = ' ' ∨ c = '\t' then some (.ended, [])
    else some (.text false, [c])

/-- The value that a text spells. Quotes and braces have to be closed. -/
def readValue? (environment : Environment) (state : ValueState) (done : List Char) :
    List Char → Option String
  | [] =>
    match state with
    | .single | .text true | .escape true | .reference _ true _ | .reference true _ _ => none
    | .reference false false name => some (String.ofList (done ++ substitute environment name))
    | _ => some (String.ofList done)
  | c :: rest => do
    let (state, more) ← state.next? environment c
    readValue? environment state (done ++ more) rest

/-- The name at the front of an assignment, and what follows it and blanks. -/
def readName? (text : List Char) : Option (List Char × List Char) :=
  match text with
  | c :: _ =>
    if c.isAlpha ∨ c = '_' then
      let (name, rest) := text.span fun c => c.isAlphanum || c = '_' || c = '.'
      some (name, trimStart rest)
    else none
  | [] => none

/-- The rest of an assignment behind the equals sign. -/
def afterEquals? : List Char → Option (List Char)
  | '=' :: rest => some (trimStart rest)
  | _ => none

/-- The name and value text of an assignment, which the word `export` may precede. -/
def readAssignment? (text : List Char) : Option (List Char × List Char) := do
  let (name, rest) ← readName? text
  match afterEquals? rest with
  | some rest => return (name, rest)
  | none =>
    if name = "export".toList then
      let (name, rest) ← readName? rest
      return (name, ← afterEquals? rest)
    else none

/-- The name and the value of an assignment. -/
def readSetting? (environment : Environment) (text : List Char) : Option (String × String) := do
  let (name, rest) ← readAssignment? text
  let value ←
    if rest = [] ∨ rest.head? = some '#' then some ""
    else readValue? environment (.text false) [] rest
  return (String.ofList name, value)

/-- Carries out assignments up to the first malformed one. An empty line and a comment set
nothing. -/
def assignAll? (environment : Environment) : List (Option (List Char)) → Option Environment
  | [] => some environment
  | none :: _ => some environment
  | some line :: rest =>
    match trimStart (trimEnd line) with
    | [] => assignAll? environment rest
    | '#' :: _ => assignAll? environment rest
    | text =>
      match readSetting? environment text with
      | none => some environment
      | some (name, value) => do assignAll? (← environment.setDefault? name value) rest

/-- The longest run of whole lines at the front that is text. -/
def textLines (octets : List UInt8) : List (List Char) :=
  go [] octets
where
  go (done : List UInt8) : List UInt8 → List (List Char)
    | [] => if done.isEmpty then [] else (decode? done).toList
    | octet :: rest =>
      if octet = 10 then
        match decode? (octet :: done) with
        | some line => line :: go [] rest
        | none => []
      else go (octet :: done) rest
  decode? (done : List UInt8) : Option (List Char) :=
    (String.fromUTF8? ⟨done.reverse.toArray⟩).map String.toList

/-- Drops a byte order mark. -/
def withoutOrderMark : List UInt8 → List UInt8
  | 0xEF :: 0xBB :: 0xBF :: rest => rest
  | octets => octets

/-- The environment with the assignments of a file. -/
def load? (environment : Environment) (content : ByteArray) : Option Environment :=
  assignAll? environment
    (logicalLines .complete [] (textLines (withoutOrderMark content.data.toList)))

end ApiLint.Environment
