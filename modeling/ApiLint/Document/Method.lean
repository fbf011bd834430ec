import ApiLint.Text.Ascii

/-! The eight methods of HTTP that a path item may hold an operation for. A key names a method by
its token, whatever the case of its letters. -/

namespace ApiLint

inductive HttpMethod where
  | get
  | post
  | put
  | patch
  | delete
  | head
  | options
  | trace
deriving DecidableEq, Repr

namespace HttpMethod

/-- All methods, in the order in which reports list them. -/
def all : List HttpMethod := [get, post, put, patch, delete, head, options, trace]

theorem mem_all (method : HttpMethod) : method ∈ all := by cases method <;> decide

def token : HttpMethod → String
  | get => "get"
  | post => "post"
  | put => "put"
  | patch => "patch"
  | delete => "delete"
  | head => "head"
  | options => "options"
  | trace => "trace"

/-- The token in capitals, as reports show it. -/
def label (method : HttpMethod) : String := method.token.map Char.toUpper

/-- The method that a key names. -/
def ofKey? (key : String) : Option HttpMethod :=
  all.find? fun method => method.token == asciiLower key

end HttpMethod

end ApiLint
