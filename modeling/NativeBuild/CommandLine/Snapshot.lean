import NativeBuild.FileSystem.Operations
import NativeBuild.Json.Reader

/-!
# Snapshots

A tree of files in one document: a JSON object whose keys are paths, seen from the
current directory, and whose values are the texts of the files there.  A key that ends
in a slash is a directory, whatever its value.

Main definitions:

- `FileSystem.ofSnapshot?`: the tree of files that a text describes.
-/

namespace NativeBuild

namespace FileSystem

/-- The name of the directory that a snapshot is put into. -/
def snapshotDirectory : FileName :=
  Text.utf8 "workspace"

/-- The tree in which a snapshot is put: its current directory is empty. -/
def beforeSnapshot : FileSystem where
  root := [(snapshotDirectory, .directory [])]
  cwd := [snapshotDirectory]

/-- Add an entry of a snapshot. -/
def addEntry (fs : FileSystem) (key : Option String) (value : Json.Value) :
    Option FileSystem :=
  match key with
  | none => none
  | some key =>
    let operation? :=
      match value with
      | .string text => some (provideFile (Path.ofString key) (Text.utf8 text))
      | _ => none
    let operation? :=
      if key.endsWith "/" then some (makeDirectoryAll (Path.ofString key)) else operation?
    match operation? with
    | none => none
    | some operation =>
      match operation fs with
      | .ok () fs => some fs
      | .error _ _ => none

/-- The tree of files that a text describes. -/
def ofSnapshot? (text : String) : Option FileSystem :=
  match Json.read text with
  | some (.object fields) =>
    fields.foldlM (fun fs field => fs.addEntry field.1 field.2) beforeSnapshot
  | _ => none

end FileSystem

end NativeBuild
