import ApiLint.Text.Printable

/-! Texts in double quotes, as messages list them: quotes and backslashes are escaped, and so is
every character that does not show. -/

namespace ApiLint

/-- The escapes of one character. -/
def quotedEscapes : List (Char × String) :=
  [('"', "\\\""), ('\\', "\\\\"), ('\n', "\\n"), ('\r', "\\r"), ('\t', "\\t"), ('\x00', "\\0")]

def quotedChar (c : Char) : String :=
  match quotedEscapes.lookup c with
  | some text => text
  | none =>
    if isShown c then String.singleton c
    else "\\u\x7b" ++ String.ofList (Nat.toDigits 16 c.toNat) ++ "\x7d"

def quotedText (text : String) : String :=
  "\"" ++ String.join (text.toList.map quotedChar) ++ "\""

def quotedList (texts : List String) : String :=
  "[" ++ ", ".intercalate (texts.map quotedText) ++ "]"

end ApiLint
