import NativeBuild.Json.Value
import NativeBuild.Plan.Basic

/-!
# Summaries

A project with its closures and link inputs resolved.

Main definitions:

- `Summary` and `Registry.describe`: the summary of a project.
- `Summary.toJson?`: its written form; paths that are no text have none.
-/

namespace NativeBuild

/-- A project with everything resolved. -/
structure Summary where
  id : String
  kind : ProjectKind
  root : Path
  output : Option Path
  strict : Bool
  libs : List String
  includes : List String
  linkClosure : List String
  headerClosure : List String
  includePaths : List Path
  libraries : List Path
deriving DecidableEq, Repr

/-- The summary of a registered project. -/
def Registry.describe (r : Registry) (id : String) : Except BuildError Summary := do
  let p ← r.require id
  return {
    id := p.id
    kind := p.kind
    root := p.root
    output := p.output?
    strict := p.strict
    libs := p.libs
    includes := p.includes
    linkClosure := ← r.linkClosure id
    headerClosure := ← r.headerClosure id
    includePaths := ← r.includePaths p
    libraries := ← r.libraries p }

/-- A path in a written document, when it is text. -/
def Path.toJson? (path : Path) : Option Json.Value :=
  path.text?.map .string

/-- A path that there may be, in a written document. -/
def optionalPathToJson? : Option Path → Option Json.Value
  | none => some .null
  | some path => path.toJson?

namespace Summary

/-- The summary as a JSON object. -/
def toJson? (s : Summary) : Option Json.Value := do
  return .record [
    ("id", .string s.id),
    ("kind", .string s.kind.name),
    ("root", ← s.root.toJson?),
    ("output", ← optionalPathToJson? s.output),
    ("strict", .bool s.strict),
    ("link_deps", .strings s.libs),
    ("include_deps", .strings s.includes),
    ("link_closure", .strings s.linkClosure),
    ("include_closure", .strings s.headerClosure),
    ("include_paths", .array (← s.includePaths.mapM Path.toJson?)),
    ("libraries", .array (← s.libraries.mapM Path.toJson?))]

end Summary

end NativeBuild
