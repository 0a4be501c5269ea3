import NativeBuild.Config.Manifest
import NativeBuild.Config.Settings
import NativeBuild.FileSystem.Walk

/-!
# Workspaces

A workspace is a root directory with settings.  It is found by looking for the
workspace file in the start directory and the directories above it, as far as the
text of the start path goes.

Main definitions:

- `Workspace.load` and `Workspace.loadFile`: the workspace of a directory or a file.
- `Workspace.discover`: the manifests in the workspace, ordered by their paths.
-/

namespace NativeBuild

/-- A root directory with its settings. -/
structure Workspace where
  settings : Settings
  root : Path
  /-- The workspace file, where there is one. -/
  configFile : Option Path
deriving DecidableEq, Repr

/-- A manifest that was found, with the project root it describes. -/
structure Definition where
  root : Path
  manifestPath : Path
  manifest : Manifest
deriving DecidableEq, Repr

/-- The text of a configuration file. -/
def readConfig (fs : FileSystem) (file : Path) : Except ConfigError String :=
  match fs.readText file with
  | .ok text => .ok text
  | .error .notFound => .error (.notFound file)
  | .error fault => .error (.unreadable fault)

/-- The manifest in a file. -/
def Manifest.load (fs : FileSystem) (file : Path) : Except ConfigError Manifest := do
  match Manifest.read (← readConfig fs file) with
  | some manifest => return manifest
  | none => .error (.malformedJson file)

/-- The checked settings in a file. -/
def Settings.load (fs : FileSystem) (file : Path) : Except ConfigError Settings := do
  match Settings.read (← readConfig fs file) with
  | some settings =>
    settings.validate
    return settings
  | none => .error (.malformedToml file)

namespace Workspace

/-! ## Finding a workspace -/

/-- The name of the workspace file. -/
def fileName : String :=
  "kiln.toml"

/-- The nearest workspace file in a directory or above it. -/
def findFile (fs : FileSystem) (start : Path) : Option Path :=
  (start.ancestors.map (·.joinText fileName)).find? fs.isFile

/-- The workspace of a directory; without a workspace file, the directory itself with
the default settings. -/
def load (fs : FileSystem) (env : Environment) (start : Path) :
    Except ConfigError Workspace := do
  match findFile fs start with
  | some file =>
    let settings ← (← Settings.load fs file).withEnvironment env
    return { settings, root := file.parent?.getD start, configFile := some file }
  | none =>
    let settings ← Settings.withEnvironment env {}
    return { settings, root := start, configFile := none }

/-- The workspace of a workspace file. -/
def loadFile (fs : FileSystem) (env : Environment) (file : Path) :
    Except ConfigError Workspace := do
  let settings ← (← Settings.load fs file).withEnvironment env
  match file.parent? with
  | some root => return { settings, root, configFile := some file }
  | none => .error (.invalid s!"{file.display} has no parent directory")

/-- The script that applications are linked with. -/
def applicationScript (w : Workspace) : Path :=
  w.root.join w.settings.link.applicationScript

/-- The script that the kernel image is linked with. -/
def kernelScript (w : Workspace) : Path :=
  w.root.join w.settings.link.kernelScript

/-! ## Finding projects -/

/-- The names of directories that hold build outputs. -/
def outputNames : List FileName :=
  ["obj", "bin", "target"].map Text.utf8

/-- A directory is searched unless it is hidden or holds build outputs. -/
def isSearched (name : FileName) : Bool :=
  name.head? != some dot && !outputNames.contains name

/-- The definition that a manifest file gives. -/
def definitionAt (fs : FileSystem) (searched manifestPath : Path) :
    Except ConfigError Definition := do
  let manifest ← Manifest.load fs manifestPath
  return { root := manifestPath.parent?.getD searched, manifestPath, manifest }

/-- An entry is a manifest file, by the name that manifests have in the workspace. -/
def isManifest (w : Workspace) (entry : Visited) : Bool :=
  entry.kind == .file && entry.name == Text.utf8 w.settings.projects.manifest

/-- The definition that a walk below a directory meets, if it meets one. -/
def definitionMet? (w : Workspace) (fs : FileSystem) (directory : Path) :
    Met → Except ConfigError (Option Definition)
  | .ok entry =>
    if w.isManifest entry then some <$> definitionAt fs directory entry.path else .ok none
  | .error stop => .error (.scan directory stop)

/-- The definitions below one search directory, in the order of the walk; the first thing
that is wrong on the way is reported. -/
def discoverIn (w : Workspace) (fs : FileSystem) (search : Path) :
    Except ConfigError (List Definition) := do
  let directory := w.root.join search
  if fs.isDirectory directory then
    let found ← (fs.walkBelow isSearched directory).mapM (w.definitionMet? fs directory)
    return found.filterMap id
  else .error (.notFound directory)

/-- The definitions of a list without those whose manifest path is the same as that of
the one kept before. -/
def dropRepeats : List Definition → List Definition
  | [] => []
  | first :: rest => first :: go first rest
where
  /-- What remains of a list after a kept definition. -/
  go (kept : Definition) : List Definition → List Definition
    | [] => []
    | next :: rest =>
      if next.manifestPath.same kept.manifestPath then go kept rest else next :: go next rest

/-- The definitions of the workspace, ordered by manifest path and each path once. -/
def discover (w : Workspace) (fs : FileSystem) : Except ConfigError (List Definition) := do
  let found ← w.settings.projects.search.mapM (w.discoverIn fs)
  return dropRepeats (found.flatten.mergeSort fun a b => a.manifestPath.le b.manifestPath)

end Workspace

end NativeBuild
