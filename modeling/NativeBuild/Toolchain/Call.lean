import NativeBuild.Plan.Basic

/-!
# Calls of the toolchain

What a build asks of the world around it: calls of the toolchain, the writing of the
generated files and the search for sources.  A backend answers; it may fail at any
point, and what it did before it failed stays done.

Main definitions:

- `ToolCall`: one call of the toolchain.
- `ToolCall.outputs`: the paths that a call writes.
- `Backend`: the answers, over a world of any type.
-/

namespace NativeBuild

/-- One call of the toolchain. -/
inductive ToolCall where
  /-- Make a directory and those above it; an existing one is fine. -/
  | makeDirectory (path : Path)
  /-- Remove a directory with all below it; a missing one is fine. -/
  | removeDirectoryTree (path : Path)
  /-- Compile a source to an object. -/
  | compile (source object : Path) (includePaths : List Path) (defines : List String)
      (strict : Bool)
  /-- Assemble a source to an object. -/
  | assemble (source object : Path)
  /-- Bundle objects into an archive. -/
  | archive (objects : List Path) (output : Path)
  /-- Link objects and archives into an image. -/
  | link (objects libraries : List Path) (output script : Path)
  /-- Write the disassembly of an image. -/
  | disassemble (image output : Path)
deriving DecidableEq, Repr

/-- The files that a call writes. -/
def ToolCall.outputs : ToolCall → List Path
  | .makeDirectory _ => []
  | .removeDirectoryTree _ => []
  | .compile _ object _ _ _ => [object]
  | .assemble _ object => [object]
  | .archive _ output => [output]
  | .link _ _ output _ => [output]
  | .disassemble _ output => [output]

/-- What answers a build, over a world `σ` that each answer may change. -/
structure Backend (σ : Type) where
  /-- Carry out a call of the toolchain. -/
  perform : ToolCall → EStateM BuildError σ Unit
  /-- Write the generated files of a project. -/
  generate : Project → EStateM BuildError σ Unit
  /-- Find the sources below a directory. -/
  scan : Path → EStateM BuildError σ (List Path)

namespace FileSystem

/-- Make or remove a directory as a call asks; any other call changes nothing. -/
def performDirectoryCall : ToolCall → EStateM BuildError FileSystem Unit
  | .makeDirectory path => atPath path (makeDirectoryAll path)
  | .removeDirectoryTree path => atPath path (removeTreeIfAny path)
  | _ => pure ()

/-- Find the sources below a directory. -/
def scanSources (directory : Path) : EStateM BuildError FileSystem (List Path) := do
  match discoverSources (← get) directory with
  | .ok sources => return sources
  | .error stop => throw (.walkFault stop)

end FileSystem

end NativeBuild
