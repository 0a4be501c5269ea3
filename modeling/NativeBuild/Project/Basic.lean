import NativeBuild.Config.Workspace
import NativeBuild.Error.Build

/-!
# Projects

A project has an id, a kind, a root directory with a fixed layout below it, and the
ids it depends on.

Main definitions:

- `Project`: a project.
- `Project.ofDefinition`: the project that a manifest defines.
- `Project.output?`: the path of what the project produces.
-/

namespace NativeBuild

/-- A project of a workspace. -/
structure Project where
  id : String
  kind : ProjectKind
  root : Path
  /-- The projects linked into this one, in order. -/
  libs : List String := []
  /-- The projects of which only the headers are used. -/
  includes : List String := []
  /-- Warnings count as errors. -/
  strict : Bool := true
  /-- The manifest that defines the project, if any. -/
  manifestPath : Option Path := none
deriving DecidableEq, Repr, Inhabited

namespace Project

/-! ## Layout -/

/-- The directory of the sources. -/
def sourceDir (p : Project) : Path := p.root.joinText "sources"

/-- The directory of the headers. -/
def includeDir (p : Project) : Path := p.root.joinText "includes"

/-- The directory of the files to embed. -/
def assetDir (p : Project) : Path := p.root.joinText "assets"

/-- The directory of objects and generated files. -/
def objDir (p : Project) : Path := p.root.joinText "obj"

/-- The directory of the output. -/
def binDir (p : Project) : Path := p.root.joinText "bin"

/-- The path of what the project produces, if it produces anything. -/
def output? (p : Project) : Option Path :=
  p.kind.extension?.map fun extension => p.binDir.joinText (p.id ++ "." ++ extension)

/-- The path of the disassembly of the output. -/
def disassembly? (p : Project) : Option Path :=
  p.output?.map (·.withSuffix ".asm")

/-- The path that tells where the project is defined. -/
def origin (p : Project) : Path :=
  p.manifestPath.getD p.root

/-- The projects whose headers are used: the linked ones, then the others. -/
def dependencies (p : Project) : List String :=
  p.libs ++ p.includes

/-! ## Definitions -/

/-- The id of a manifest: its text without blanks around it, unless nothing is left. -/
def trimmedId? (manifest : Manifest) : Option String :=
  (manifest.id.map Text.trim).bind fun id => if id = "" then none else some id

/-- The project that a manifest defines; id and kind must be given. -/
def ofDefinition (definition : Definition) : Except BuildError Project :=
  match trimmedId? definition.manifest with
  | none => .error (.invalidProject definition.manifestPath.display "missing 'id'")
  | some id =>
    match definition.manifest.kind with
    | none => .error (.invalidProject id "missing 'type'")
    | some kind =>
      .ok {
        id
        kind := .ofName kind
        root := definition.root
        libs := definition.manifest.libs
        includes := definition.manifest.includes
        strict := definition.manifest.isStrict
        manifestPath := some definition.manifestPath }

/-- A project produces something exactly when its kind is known. -/
theorem isSome_output? (p : Project) : p.output?.isSome = p.kind.isKnown := by
  rw [output?, Option.isSome_map, ProjectKind.isSome_extension?]

end Project

end NativeBuild
