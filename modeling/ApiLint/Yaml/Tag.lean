/-! What a tag says about its node. Four core types convert the text of a scalar, a private tag of
the author's own wraps its node, and all others only make a scalar a string. -/

namespace ApiLint.Yaml

/-- The core types whose tags convert text. -/
inductive CoreType where
  | null
  | bool
  | int
  | float
deriving DecidableEq, Repr

inductive Tag where
  | core (type : CoreType)
  /-- A tag that starts with an exclamation mark, by its name. -/
  | named (name : String)
  /-- A tag that starts with an exclamation mark but is no text. -/
  | unreadable
  | other
deriving DecidableEq, Repr

/-- What the tags of the core types start with. -/
def coreLead : String := "tag:yaml.org,2002:"

def CoreType.all : List CoreType := [.null, .bool, .int, .float]

def CoreType.name : CoreType → String
  | .null => "null"
  | .bool => "bool"
  | .int => "int"
  | .float => "float"

/-- Drops one exclamation mark from the front, unless nothing else is there. -/
def withoutMark (text : String) : String :=
  match text.toList with
  | '!' :: c :: rest => String.ofList (c :: rest)
  | _ => text

namespace Tag

/-- Names are compared without a second mark at their front, and kept in that form. The mark alone
is a name too. -/
def ofOctets (octets : List UInt8) : Tag :=
  match String.fromUTF8? (ByteArray.mk octets.toArray), octets.head? == some 33 with
  | some text, true => .named (withoutMark (withoutMark text))
  | none, true => .unreadable
  | some text, false =>
    match CoreType.all.find? fun type => text == coreLead ++ type.name with
    | some type => .core type
    | none => .other
  | none, false => .other

/-- The name of a private tag. -/
def name? : Tag → Option String
  | .named name => some name
  | _ => none

/-- Whether a plain scalar with this tag is read as if it had none. -/
def keepsPlain : Tag → Bool
  | .named _ | .unreadable => true
  | .core _ | .other => false

end Tag

end ApiLint.Yaml
