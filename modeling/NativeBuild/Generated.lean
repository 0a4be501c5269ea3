import NativeBuild.FileSystem.Walk
import NativeBuild.Project.Basic

/-!
# Generated files

Three files are written into a project's object directory before it is compiled: a
header with the project's id, kind and build date, a header that declares every
embedded file, and an assembly source that embeds them.

Main definitions:

- `assetSymbol`: the symbol under which a file is embedded.
- `Project.metaText`, `Project.assetHeaderText` and `Project.assetSourceText`: the texts.
- `Project.generate`: writing the three files.
-/

namespace NativeBuild

/-- The symbol of an embedded file: project and file name, with every full stop replaced
by an underscore. -/
def assetSymbol (project file : String) : String :=
  String.ofList (("__" ++ project ++ "_" ++ file).toList.map fun c => if c = '.' then '_' else c)

/-- The files that are generated for a project, and the names of those embedded. -/
structure Generated where
  metaHeader : Path
  assetHeader : Path
  assetSource : Path
  assets : List String
deriving DecidableEq, Repr

namespace Project

/-! ## Paths -/

/-- The header with id, kind and build date. -/
def metaHeader (p : Project) : Path := p.objDir.joinText "__meta.h"

/-- The header that declares the embedded files. -/
def assetHeader (p : Project) : Path := p.objDir.joinText "__assets.h"

/-- The source that embeds the files. -/
def assetSource (p : Project) : Path := p.objDir.joinText "__assets.s"

/-! ## Texts -/

/-- The remark in every generated file. -/
def generatedRemark : String :=
  "This file is auto generated."

/-- The text of the header with id, kind and build date. -/
def metaText (p : Project) (date : String) : String :=
  "#pragma once\n"
    ++ s!"// {generatedRemark}\n\n"
    ++ s!"#define __PROJECT_ID \"{p.id}\"\n"
    ++ s!"#define __PROJECT_TYPE \"{p.kind.name}\"\n"
    ++ s!"#define __PROJECT_BUILD_DATE \"{date}\"\n"

/-- The declarations of one embedded file. -/
def assetDeclarations (p : Project) (file : String) : String :=
  let symbol := assetSymbol p.id file
  "\n"
    ++ s!"extern const char {symbol}_start;\n"
    ++ s!"extern const char {symbol}_end;\n"
    ++ s!"extern const int {symbol}_size;\n"

/-- The text of the header that declares the embedded files. -/
def assetHeaderText (p : Project) (files : List String) : String :=
  "#pragma once\n"
    ++ s!"// {generatedRemark}\n"
    ++ String.join (files.map p.assetDeclarations)

/-- The definitions of one embedded file. -/
def assetDefinitions (p : Project) (file : String) : String :=
  let symbol := assetSymbol p.id file
  let path := (p.assetDir.joinText file).display
  "\n"
    ++ s!"global {symbol}_start\n"
    ++ s!"global {symbol}_end\n"
    ++ s!"global {symbol}_size\n"
    ++ "\n"
    ++ s!"{symbol}_start:   incbin \"{path}\"\n"
    ++ s!"{symbol}_end:\n"
    ++ s!"{symbol}_size:    dd $-{symbol}_start\n"

/-- The text of the source that embeds the files. -/
def assetSourceText (p : Project) (files : List String) : String :=
  "bits 32\n"
    ++ "section .rodata\n"
    ++ s!";; {generatedRemark}\n"
    ++ "global __assets_start\n"
    ++ "__assets_start:\n"
    ++ String.join (files.map p.assetDefinitions)
    ++ "global __assets_end\n"
    ++ "__assets_end:\n"

end Project

/-! ## Writing -/

/-- The names of the files to embed: the regular files directly in a directory whose
names are text, in order. -/
def listAssets (fs : FileSystem) (directory : Path) : List String :=
  (fs.filesIn directory).filterMap Text.decode?

/-- A file operation on behalf of a build: a fault is reported with its path. -/
def atPath {α : Type} (path : Path) (operation : FileSystem.Operation α) :
    EStateM BuildError FileSystem α :=
  operation.adaptExcept (.fileFault path)

/-- Write the three files of a project. -/
def Project.generate (p : Project) (date : String) :
    EStateM BuildError FileSystem Generated := do
  atPath p.objDir (FileSystem.makeDirectoryAll p.objDir)
  let assets := listAssets (← get) p.assetDir
  let write (path : Path) (text : String) :=
    atPath path (FileSystem.writeFile path (Text.utf8 text))
  write p.metaHeader (p.metaText date)
  write p.assetHeader (p.assetHeaderText assets)
  write p.assetSource (p.assetSourceText assets)
  return {
    metaHeader := p.metaHeader
    assetHeader := p.assetHeader
    assetSource := p.assetSource
    assets }

end NativeBuild
