import NativeBuild.Text.Utf8

/-!
# The environment

The variables that a program finds in its surroundings.

Main definitions:

- `Environment`: the variables.
- `Environment.get?` and `Environment.text?`: one of them, as bytes and as text.
- `Environment.set`: the environment with a variable set.
-/

namespace NativeBuild

/-- The environment variables: their names and their bytes. -/
abbrev Environment := List (String × List UInt8)

namespace Environment

/-- The bytes of a variable that is set. -/
def get? (env : Environment) (name : String) : Option (List UInt8) :=
  (env.find? fun entry => entry.1 == name).map (·.2)

/-- The text of a variable that is set to UTF-8. -/
def text? (env : Environment) (name : String) : Option String :=
  (env.get? name).bind Text.decode?

/-- The environment with a variable set. -/
def set (env : Environment) (name value : String) : Environment :=
  (name, Text.utf8 value) :: env.filter fun entry => entry.1 != name

end Environment

end NativeBuild
