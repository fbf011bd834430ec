import ApiLint.Document.Basic
import ApiLint.Json.Parser
import ApiLint.Text.Blank
import ApiLint.Yaml.Merge
import ApiLint.Yaml.ToJson
import ApiLint.Yaml.Verbatim

/-! From a text to a document. What goes wrong is told by its cause. Where a text breaks the syntax
of its format the message quotes the parser, whose words are taken as given. -/

namespace ApiLint

/-- Why a file cannot be read. -/
inductive FileError where
  | notFound
  | notDirectory
  | isDirectory
  | nameTooLong
  | zeroInName
  | notText
  | denied
deriving DecidableEq, Repr

def FileError.message : FileError → String
  | notFound => "No such file or directory (os error 2)"
  | notDirectory => "Not a directory (os error 20)"
  | isDirectory => "Is a directory (os error 21)"
  | nameTooLong => "File name too long (os error 36)"
  | zeroInName => "file name contained an unexpected NUL byte"
  | notText => "stream did not contain valid UTF-8"
  | denied => "Permission denied (os error 13)"

/-- The kinds of errors, as their messages begin. -/
inductive ErrorKind where
  | io
  | parse
  | general
deriving DecidableEq, Repr

namespace ErrorKind

def name : ErrorKind → String
  | io => "Io"
  | parse => "Parse"
  | general => "General"

def label : ErrorKind → String
  | io => "IO"
  | parse => "Parse"
  | general => "General"

/-- A message of this kind. -/
def message (kind : ErrorKind) (detail : String) : String := kind.label ++ " Error: " ++ detail

end ErrorKind

/-- What the parsers say about a text that breaks the syntax of their format. -/
structure ParserMessages where
  json : String → String
  yaml : String → String

/-- Why there is no document. -/
inductive LoadError where
  | file (error : FileError)
  /-- The text is no JSON. -/
  | json (text : String)
  /-- The text is no YAML. -/
  | yaml (text : String)
  | merge (error : Yaml.MergeError)
deriving DecidableEq, Repr

namespace LoadError

def kind : LoadError → ErrorKind
  | file _ => .io
  | _ => .parse

def detail (parsers : ParserMessages) : LoadError → String
  | file error => error.message
  | json text => "Failed to parse OpenAPI JSON: " ++ parsers.json text
  | yaml text => "Failed to parse OpenAPI YAML: " ++ parsers.yaml text
  | merge error => "Failed to apply YAML merge keys: " ++ error.message

def message (parsers : ParserMessages) (error : LoadError) : String :=
  error.kind.message (error.detail parsers)

end LoadError

/-- The formats of a document. -/
inductive Format where
  | json
  | yaml
deriving DecidableEq, Repr

namespace Document

def ofJsonText (text : String) : Except LoadError Document :=
  match Json.parse? text with
  | some value => .ok (.ofJson value)
  | none => .error (.json text)

/-- The document of a YAML tree: merges are carried out, and keys become text. -/
def ofYaml (value : Yaml.Value) : Except LoadError Document :=
  match value.merge with
  | .ok value => .ok (.ofJson value.toJson)
  | .error error => .error (.merge error)

def ofYamlText (text : String) : Except LoadError Document :=
  match Yaml.Value.parse? text with
  | some value => ofYaml value
  | none => .error (.yaml text)

/-- JSON starts with a brace, after white space; all else is YAML. -/
def sniff (text : String) : Format :=
  if (text.toList.dropWhile isWhiteSpace).head? = some '\x7b' then .json else .yaml

/-- Reads a text in the given format, or in the one that it looks like. -/
def ofText (format : Option Format) (text : String) : Except LoadError Document :=
  match format.getD (sniff text) with
  | .json => ofJsonText text
  | .yaml => ofYamlText text

end Document

end ApiLint
