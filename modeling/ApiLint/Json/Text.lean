import ApiLint.Json.Basic

/-! The written form of a value: compact without blanks, or indented with two spaces a level. Keys
stand in document order, and a string escapes only quotes, backslashes and control characters. -/

namespace ApiLint.Json

/-- The control characters with an escape of their own. -/
def namedEscapes : List (Char × String) :=
  [('"', "\\\""), ('\\', "\\\\"), ('\x08', "\\b"), ('\x0c', "\\f"), ('\n', "\\n"), ('\r', "\\r"),
    ('\t', "\\t")]

def hexDigit (n : Nat) : Char := Nat.digitChar n

def escaped (c : Char) : String :=
  match namedEscapes.lookup c with
  | some text => text
  | none =>
    if c.toNat < 0x20 then
      "\\u00" ++ String.ofList [hexDigit (c.toNat / 16), hexDigit (c.toNat % 16)]
    else String.singleton c

def quoted (text : String) : String := "\"" ++ String.join (text.toList.map escaped) ++ "\""

/-- The written form of a value that is neither an array nor an object. -/
def leafText : Json → String
  | .bool value => if value then "true" else "false"
  | .number value => value.text
  | .string value => quoted value
  | _ => "null"

mutual

def compact : Json → String
  | .array elements => "[" ++ ",".intercalate (compactElements elements) ++ "]"
  | .object entries => "\x7b" ++ ",".intercalate (compactEntries entries) ++ "\x7d"
  | leaf => leafText leaf

def compactElements : List Json → List String
  | [] => []
  | value :: rest => compact value :: compactElements rest

def compactEntries : List (String × Json) → List String
  | [] => []
  | (key, value) :: rest => (quoted key ++ ":" ++ compact value) :: compactEntries rest

end

/-- Items on lines of their own between brackets; no item leaves the bare brackets. -/
def block (opening closing : String) (level : Nat) : List String → String
  | [] => opening ++ closing
  | items =>
    let indent (n : Nat) : String := "\n" ++ String.ofList (List.replicate (2 * n) ' ')
    opening ++ ",".intercalate (items.map (indent (level + 1) ++ ·)) ++ indent level ++ closing

mutual

def prettyAt (level : Nat) : Json → String
  | .array elements => block "[" "]" level (prettyElements (level + 1) elements)
  | .object entries => block "\x7b" "\x7d" level (prettyEntries (level + 1) entries)
  | leaf => leafText leaf

def prettyElements (level : Nat) : List Json → List String
  | [] => []
  | value :: rest => prettyAt level value :: prettyElements level rest

def prettyEntries (level : Nat) : List (String × Json) → List String
  | [] => []
  | (key, value) :: rest =>
    (quoted key ++ ": " ++ prettyAt level value) :: prettyEntries level rest

end

def pretty (value : Json) : String := value.prettyAt 0

end ApiLint.Json
