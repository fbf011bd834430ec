import ApiLint.Json.Parser
import ApiLint.Options.Basic
import ApiLint.Yaml.Verbatim

/-! Settings read from JSON or YAML text. Unknown keys are passed over, and the depth is written at
most once, as a whole number of 64 bits. -/

namespace ApiLint.Options

open Json in
/-- A depth at the front of a JSON text. -/
def readDepth? (text : List Char) : Option (Nat × List Char) := do
  let (literal, rest) ← readLiteral? (skipBlanks text)
  match ← Number.ofLiteral? literal with
  | .int (.ofNat depth) => return (depth, rest)
  | _ => none

open Json in
/-- Reads the members of an object up to its end. Values under unknown keys only have to be well
formed. -/
def readMembers? (found : Option Nat) (text : List Char) : Nat → Option (Options × List Char)
  | 0 => none
  | fuel + 1 => do
    let rules : Rules := ⟨none, false⟩
    let (key, rest) ← readKey? true text
    let (found, rest) ←
      if key = depthKey then
        if found.isSome then none
        else (readDepth? rest).map fun (depth, rest) => (some depth, rest)
      else (read? rules rest).map fun (_, rest) => (found, rest)
    match skipBlanks rest with
    | ',' :: rest => readMembers? found rest fuel
    | '\x7d' :: rest => return (ofDepth found, rest)
    | _ => none

open Json in
/-- Reads an object, or an array that holds nothing but the depth. -/
def readSettings? (text : List Char) : Option (Options × List Char) :=
  match skipBlanks text with
  | '\x7b' :: rest =>
    match skipBlanks rest with
    | '\x7d' :: rest => some ({}, rest)
    | rest => readMembers? none rest (rest.length + 1)
  | '[' :: rest =>
    match skipBlanks rest with
    | ']' :: rest => some ({}, rest)
    | rest => do
      let (depth, rest) ← readDepth? rest
      match skipBlanks rest with
      | ']' :: rest => return (⟨depth⟩, rest)
      | _ => none
  | _ => none

/-- The settings in a JSON text. -/
def ofJson? (text : String) : Option Options :=
  match readSettings? text.toList with
  | some (options, rest) => if Json.skipBlanks rest == [] then some options else none
  | none => none

open Yaml in
/-- A depth as a plain scalar, or as a literal block that is tagged as an integer. -/
def depthOf? : Node → Option Nat
  | .scalar properties style text =>
    if style = .plain ∨ (style = .literal ∧ properties.tag = some (.core .int)) then
      match text.toList.head?, readInteger text.toList with
      | some '-', _ => none
      | _, .fits (.ofNat depth) => some depth
      | _, _ => none
    else none
  | _ => none

open Yaml in
/-- Reads the entries of a mapping. Only keys and the depth are looked at. -/
def readEntries (anchors : Anchors) (found : Option Nat) :
    List (Node × Node) → Expansion Options
  | [] => return ofDepth found
  | (key, value) :: rest => do
    if (← Verbatim.keyOf anchors key) = depthKey then
      if found.isSome then failure
      match depthOf? (← follow anchors value) with
      | some depth => readEntries anchors (some depth) rest
      | none => failure
    else readEntries anchors found rest

open Yaml in
/-- The settings in a YAML text. One without content has none of its own. -/
def ofYaml? (text : String) : Option Options := do
  match ← documentOf? (← tokensOf? text) with
  | none => return {}
  | some document =>
    match document with
    | .mapping _ entries => (readEntries (.ofNode document) none entries).run? document
    | .scalar _ .plain "" => return {}
    | _ => none

end ApiLint.Options
