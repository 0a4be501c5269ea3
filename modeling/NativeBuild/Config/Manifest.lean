import NativeBuild.Json.Reader

/-!
# Project manifests

The raw definition of a project, as its manifest file holds it.  Every field may be
missing; what a project needs is checked when the project is made.

Main definitions:

- `Manifest`: the raw definition.
- `Manifest.toJson` and `Manifest.ofJson?`: its written form and the reading of it.

A written manifest leaves out what is none or empty.  A reader takes an object, in
which it skips unknown keys and refuses repeated known ones, or an array of at most
five values, which stand for the fields in order.
-/

namespace NativeBuild

open Json (Value)

/-- The raw definition of a project. -/
structure Manifest where
  id : Option String := none
  /-- The name of the project's kind, written under the key `type`. -/
  kind : Option String := none
  libs : List String := []
  includes : List String := []
  strict : Option Bool := none
deriving DecidableEq, Repr, Inhabited

namespace Manifest

/-- A project is strict unless its manifest says otherwise. -/
def isStrict (m : Manifest) : Bool :=
  m.strict.getD true

/-- The keys of a manifest, in the order of the fields. -/
def keys : List String :=
  ["id", "type", "libs", "includes", "strict"]

/-! ## Writing -/

/-- The manifest as a JSON object without what is none or empty. -/
def toJson (m : Manifest) : Value :=
  .record <|
    (m.id.map fun id => ("id", Value.string id)).toList
      ++ (m.kind.map fun kind => ("type", Value.string kind)).toList
      ++ (if m.libs = [] then [] else [("libs", Value.strings m.libs)])
      ++ (if m.includes = [] then [] else [("includes", Value.strings m.includes)])
      ++ (m.strict.map fun strict => ("strict", Value.bool strict)).toList

/-! ## Reading -/

/-- The text of a string. -/
def text? : Value → Option String
  | .string text => some text
  | _ => none

/-- The texts of an array of strings. -/
def texts? : Value → Option (List String)
  | .array items => items.mapM text?
  | _ => none

/-- A text, or none written as null. -/
def optionalText? : Value → Option (Option String)
  | .null => some none
  | value => (text? value).map some

/-- A truth value, or none written as null. -/
def optionalBool? : Value → Option (Option Bool)
  | .null => some none
  | .bool b => some (some b)
  | _ => none

/-- The keyed values of an object whose keys are all texts, or of an array of at
most as many values as there are keys. -/
def keyedValues? : Value → Option (List (String × Value))
  | .object fields => fields.mapM fun field => field.1.map fun key => (key, field.2)
  | .array items => if items.length ≤ keys.length then some (keys.zip items) else none
  | _ => none

/-- Read the value of a key that may be missing but not repeated. -/
def field? {α : Type} (fields : List (String × Value)) (key : String) (missing : α)
    (read : Value → Option α) : Option α :=
  match fields.filter fun field => field.1 == key with
  | [] => some missing
  | [field] => read field.2
  | _ => none

/-- The manifest that a JSON value holds. -/
def ofJson? (value : Value) : Option Manifest := do
  let fields ← keyedValues? value
  return {
    id := ← field? fields "id" none optionalText?
    kind := ← field? fields "type" none optionalText?
    libs := ← field? fields "libs" [] texts?
    includes := ← field? fields "includes" [] texts?
    strict := ← field? fields "strict" none optionalBool? }

/-- The manifest that a JSON text holds. -/
def read (text : String) : Option Manifest :=
  (Json.read text).bind ofJson?

end Manifest

end NativeBuild
