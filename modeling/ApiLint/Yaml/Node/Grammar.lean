import ApiLint.Yaml.Node
import ApiLint.Yaml.Token.Stream

/-! The nodes that a list of tokens spells. A text holds at most one document. Anchors are numbered
by the count of distinct names before them, so that a name used again shares its number with the
next new name; an alias takes the number its name has where the alias stands. -/

namespace ApiLint.Yaml

/-- What is known when a node is read: handles of tags, and the numbers of anchor names. -/
structure Names where
  handles : List (String × List UInt8)
  anchors : List (String × Nat) := []
deriving Repr

namespace Names

/-- The number that an anchor gets; a name keeps only its last one. -/
def define (names : Names) (name : String) : Nat × Names :=
  let number := names.anchors.length
  (number, { names with
    anchors := (name, number) :: names.anchors.filter fun entry => entry.1 ≠ name })

/-- The octets of a tag. -/
def octets? (names : Names) (handle : String) (suffix : List UInt8) : Option (List UInt8) :=
  if handle = "" then some suffix else (names.handles.lookup handle).map (· ++ suffix)

end Names

/-- The tokens left to be read, and the names. -/
structure Reading where
  tokens : List Token
  names : Names

abbrev Reader := StateT Reading Option

namespace Reader

def peek : Reader (Option Token) := return (← get).tokens.head?

def skip : Reader Unit := modify fun reading => { reading with tokens := reading.tokens.drop 1 }

/-- Whether one of these tokens is next. -/
def nextIn (tokens : List Token) : Reader Bool := return (← peek).any tokens.contains

/-- Skips the token if it is next, and tells whether it was. -/
def skips (token : Token) : Reader Bool := do
  if ← nextIn [token] then
    skip
    return true
  else return false

def demand (token : Token) : Reader Unit := do
  if !(← skips token) then failure

/-- Reads an anchor name, if one is next. -/
def anchor : Reader (Option String) := do
  match ← peek with
  | some (.anchor name) =>
    skip
    return some name
  | _ => return none

/-- Reads a tag, if one is next. Its handle has to be known. -/
def tag : Reader (Option Tag) := do
  match ← peek with
  | some (.tag handle suffix) =>
    skip
    match (← get).names.octets? handle suffix with
    | some octets => return some (.ofOctets octets)
    | none => failure
  | _ => return none

/-- Reads an anchor and a tag, in either order. -/
def properties : Reader Properties := do
  let before ← anchor
  let tag ← tag
  let name ← if before.isSome then pure before else anchor
  match name with
  | none => return { tag }
  | some name =>
    let (number, names) := (← get).names.define name
    modify fun reading => { reading with names }
    return { anchor := some number, tag }

end Reader

open Reader

/-- Where a node stands: whether a block collection may start, also a sequence that is not indented
beyond the mapping around it. -/
inductive Place where
  | flow
  | block
  | blockValue
deriving DecidableEq

mutual

/-- Reads a node. The fuel bounds the number of steps and is larger than the list of tokens. -/
def readNode (fuel : Nat) (place : Place) : Reader Node :=
  match fuel with
  | 0 => failure
  | fuel + 1 => do
    match ← peek with
    | some (.aliasOf name) =>
      skip
      match (← get).names.anchors.lookup name with
      | some number => return .aliasOf number
      | none => failure
    | _ =>
      let properties ← properties
      match ← peek with
      | some (.scalar style text) =>
        skip
        return .scalar properties style text
      | some .flowSequenceStart =>
        skip
        return .sequence properties (← readFlowItems fuel true)
      | some .flowMappingStart =>
        skip
        return .mapping properties (← readFlowEntries fuel true)
      | some .blockSequenceStart =>
        if place = .flow then readEmpty properties
        else
          skip
          return .sequence properties (← readBlockItems fuel)
      | some .blockMappingStart =>
        if place = .flow then readEmpty properties
        else
          skip
          return .mapping properties (← readBlockEntries fuel)
      | some .blockEntry =>
        if place = .blockValue then return .sequence properties (← readUnindentedItems fuel)
        else readEmpty properties
      | _ => readEmpty properties

/-- A node may be left out where it has properties. -/
def readEmpty (properties : Properties) : Reader Node :=
  if properties.anchor.isSome || properties.tag.isSome then return .empty properties else failure

/-- Reads a node, which is empty if one of the tokens `ends` is next. -/
def readNodeUnless (fuel : Nat) (place : Place) (ends : List Token) : Reader Node :=
  match fuel with
  | 0 => failure
  | fuel + 1 => do if ← nextIn ends then return .empty {} else readNode fuel place

def readBlockItems (fuel : Nat) : Reader (List Node) :=
  match fuel with
  | 0 => failure
  | fuel + 1 => do
    if ← skips .blockEnd then return []
    demand .blockEntry
    let item ← readNodeUnless fuel .block [.blockEntry, .blockEnd]
    return item :: (← readBlockItems fuel)

/-- A sequence that is not indented ends where no further entry follows. -/
def readUnindentedItems (fuel : Nat) : Reader (List Node) :=
  match fuel with
  | 0 => failure
  | fuel + 1 => do
    if ← skips .blockEntry then
      let item ← readNodeUnless fuel .block [.blockEntry, .key, .value, .blockEnd]
      return item :: (← readUnindentedItems fuel)
    else return []

def readBlockEntries (fuel : Nat) : Reader (List (Node × Node)) :=
  match fuel with
  | 0 => failure
  | fuel + 1 => do
    if ← skips .blockEnd then return []
    demand .key
    let key ← readNodeUnless fuel .blockValue [.key, .value, .blockEnd]
    let value ←
      if ← skips .value then readNodeUnless fuel .blockValue [.key, .value, .blockEnd]
      else pure (.empty {})
    return (key, value) :: (← readBlockEntries fuel)

/-- Reads the items up to the closing bracket. A comma separates them and may follow the last. -/
def readFlowItems (fuel : Nat) (first : Bool) : Reader (List Node) :=
  match fuel with
  | 0 => failure
  | fuel + 1 => do
    if ← skips .flowSequenceEnd then return []
    if !first then demand .flowEntry
    if !first && (← skips .flowSequenceEnd) then return []
    let item ← if ← skips .key then readPair fuel else readNode fuel .flow
    return item :: (← readFlowItems fuel false)

/-- Reads a mapping of one entry in a flow sequence. Where its key is left out, the token in the
place of the key is passed over. -/
def readPair (fuel : Nat) : Reader Node :=
  match fuel with
  | 0 => failure
  | fuel + 1 => do
    let key ←
      if ← nextIn [.value, .flowEntry, .flowSequenceEnd] then
        skip
        pure (.empty {})
      else readNode fuel .flow
    let value ←
      if ← skips .value then readNodeUnless fuel .flow [.flowEntry, .flowSequenceEnd]
      else pure (.empty {})
    return .mapping {} [(key, value)]

/-- Reads the entries up to the closing bracket. A key may stand without a value. -/
def readFlowEntries (fuel : Nat) (first : Bool) : Reader (List (Node × Node)) :=
  match fuel with
  | 0 => failure
  | fuel + 1 => do
    if ← skips .flowMappingEnd then return []
    if !first then demand .flowEntry
    if !first && (← skips .flowMappingEnd) then return []
    let entry ←
      if ← skips .key then
        let key ← readNodeUnless fuel .flow [.value, .flowEntry, .flowMappingEnd]
        let value ←
          if ← skips .value then readNodeUnless fuel .flow [.flowEntry, .flowMappingEnd]
          else pure (.empty {})
        pure (key, value)
      else pure (← readNode fuel .flow, .empty {})
    return entry :: (← readFlowEntries fuel false)

end

/-- The handles that need no directive, unless one gives them another meaning. -/
def standardHandles : List (String × List UInt8) :=
  [("!", "!".toUTF8.toList), ("!!", coreLead.toUTF8.toList)]

/-- Reads the directives before a document: at most one version, which has to be 1.1 or 1.2, and
each handle at most once. -/
def handlesOf? (versions : Nat) (handles : List (String × List UInt8)) :
    List Token → Option (List (String × List UInt8) × List Token)
  | .version major minor :: rest =>
    if versions = 0 ∧ major = 1 ∧ (minor = 1 ∨ minor = 2) then handlesOf? 1 handles rest else none
  | .tagHandle handle octets :: rest =>
    if (handles.lookup handle).isSome then none
    else handlesOf? versions ((handle, octets) :: handles) rest
  | rest => some (handles, rest)

def isDirective : Token → Bool
  | .version .. | .tagHandle .. => true
  | _ => false

/-- A document without content ends where it starts. -/
def endsDocument (tokens : List Token) : Bool :=
  tokens.head?.all fun token =>
    isDirective token || token == .documentStart || token == .documentEnd

/-- The document of a list of tokens, if there is one; fails if the tokens spell anything else. -/
def documentOf? (tokens : List Token) : Option (Option Node) :=
  match tokens with
  | [] => some none
  | first :: _ => do
    let marked := isDirective first || first == .documentStart
    let (handles, rest) ← handlesOf? 0 [] tokens
    let content ←
      if !marked then some rest
      else match rest with
        | .documentStart :: rest => some rest
        | _ => none
    let names : Names := { handles := handles ++ standardHandles }
    let (node, reading) ←
      if marked && endsDocument content then some (Node.empty {}, ⟨content, names⟩)
      else (readNode (4 * content.length + 4) .block).run ⟨content, names⟩
    if reading.tokens.all (· == .documentEnd) then return some node else none

end ApiLint.Yaml
