/-! Variables of the environment. -/

namespace ApiLint

abbrev Environment := List (String × String)

namespace Environment

/-- The value of a variable. A variable is stored as one text, its name and its value with an equals
sign between them, and is found by how that text starts. -/
def value? (environment : Environment) (name : String) : Option String :=
  environment.findSome? fun (key, value) =>
    ((name ++ "=").toList.isPrefixOf? (key ++ "=" ++ value).toList).map String.ofList

/-- Sets a variable, unless it is set. No value with a zero character can be set. -/
def setDefault? (environment : Environment) (name value : String) : Option Environment :=
  if (environment.value? name).isSome then some environment
  else if value.toList.contains '\x00' then none
  else some (environment ++ [(name, value)])

end Environment

end ApiLint
