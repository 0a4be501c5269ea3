import NativeBuild.Generated

/-!
# Compilation units

A unit is a source with the object it becomes.  The generated source with the embedded
files is always the first unit of a project; the others are the sources that were
found, in their order.

Main definitions:

- `Language.ofPath?`: the language of a source, by its extension.
- `Project.units`: the units of a project.
- `discoverSources`: the sources below a directory.
-/

namespace NativeBuild

/-- How a source becomes an object. -/
inductive Language where
  | c
  | assembly
deriving DecidableEq, Repr

/-- The language of a source, by its extension. -/
def Language.ofPath? (path : Path) : Option Language :=
  match path.extension? with
  | none => none
  | some extension =>
    if extension = Text.utf8 "c" then some .c
    else if extension = Text.utf8 "s" then some .assembly
    else none

/-- A source with the object it becomes. -/
structure CompilationUnit where
  source : Path
  object : Path
  language : Language
deriving DecidableEq, Repr

/-- The path with the suffix of objects. -/
def Path.asObject (path : Path) : Path :=
  path.withSuffix ".o"

namespace Project

/-- The object of a source: a source below the source directory has its object at the
same place below the object directory, any other one beside it. -/
def objectOf (p : Project) (source : Path) : Path :=
  match source.stripPrefix? p.sourceDir with
  | some rest => (p.objDir.join rest).asObject
  | none => source.asObject

/-- The unit of the generated source with the embedded files. -/
def assetUnit (p : Project) : CompilationUnit :=
  ⟨p.assetSource, p.assetSource.asObject, .assembly⟩

/-- The unit of a source, if it has a language. -/
def unitOf? (p : Project) (source : Path) : Option CompilationUnit :=
  (Language.ofPath? source).map fun language => ⟨source, p.objectOf source, language⟩

/-- The units of a project with the given sources. -/
def units (p : Project) (sources : List Path) : List CompilationUnit :=
  p.assetUnit :: sources.filterMap p.unitOf?

/-- The unit of the embedded files comes first. -/
theorem units_eq_cons (p : Project) (sources : List Path) :
    p.units sources = p.assetUnit :: sources.filterMap p.unitOf? := rfl

end Project

/-- What is met is a source: a regular file with a language. -/
def Visited.isSource (entry : Visited) : Bool :=
  entry.kind == .file && (Language.ofPath? entry.path).isSome

/-- The sources below a directory, in the order of the walk; none where there is no
directory. -/
def discoverSources (fs : FileSystem) (directory : Path) : Except WalkFault (List Path) := do
  let entries ← (fs.walkBelow (fun _ => true) directory).mapM id
  return (entries.filter (·.isSource)).map (·.path)

end NativeBuild
