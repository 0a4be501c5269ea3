import NativeBuild.FileSystem.Operations

/-!
# Walking a directory

The entries below a directory, siblings in the order of their names, every
directory directly before what is below it.  Symbolic links below the start are
listed and not followed; the start itself may be one.  A directory whose path is too
long to be read is listed too, and what stops the walk there stands in place of what is
below it.

Main definitions:

- `Met`: what a walk meets, an entry or what stops it.
- `Node.listing`: the walk of a tree.
- `FileSystem.walkBelow`: the walk from a path.
- `FileSystem.filesIn`: the names of the files directly in a directory.
-/

namespace NativeBuild

/-- What an entry is. -/
inductive EntryKind where
  | file
  | link
  | directory
deriving DecidableEq, Repr

/-- The kind of a node. -/
def Node.kind : Node → EntryKind
  | .file _ => .file
  | .link _ => .link
  | .directory _ => .directory

/-- One entry met on a walk. -/
structure Visited where
  path : Path
  name : FileName
  kind : EntryKind
deriving DecidableEq, Repr

/-- What a walk meets: an entry, or a directory that it cannot read. -/
abbrev Met := Except WalkFault Visited

/-- Named groups in the order of their names. -/
def sortByName {α : Type} (groups : List (FileName × α)) : List (FileName × α) :=
  groups.mergeSort fun a b => decide (a.1 ≤ b.1)

mutual
/-- What is met below a node that has the given path; a directory whose name is
not kept is left out with all below it. -/
def Node.listing (keep : FileName → Bool) (path : Path) : Node → List Met
  | .file _ => []
  | .link _ => []
  | .directory entries =>
    if FileSystem.maxPath < path.bytes.length then [.error ⟨path, .nameTooLong⟩]
    else (sortByName (listingGroups keep path entries)).flatMap (·.2)

/-- Of each entry, its name, and itself with what is met below it. -/
def listingGroups (keep : FileName → Bool) (path : Path) :
    List (FileName × Node) → List (FileName × List Met)
  | [] => []
  | (name, node) :: rest =>
    (name,
      if node.kind = .directory ∧ keep name = false then []
      else .ok ⟨path.child name, name, node.kind⟩ :: node.listing keep (path.child name))
      :: listingGroups keep path rest
end

namespace FileSystem

/-- What is met below the directory that a path leads to; nothing when it leads to no
directory. -/
def walkBelow (fs : FileSystem) (keep : FileName → Bool) (path : Path) : List Met :=
  match fs.locate .target path with
  | .ok (.present _ node) => node.listing keep path
  | _ => []

/-- The names of the regular files directly in a directory, in order; none when the
path leads to no directory. -/
def filesIn (fs : FileSystem) (path : Path) : List FileName :=
  match fs.locate .target path with
  | .ok (.present _ (.directory entries)) =>
    ((sortByName entries).filter fun entry => entry.2.kind == .file).map (·.1)
  | _ => []

end FileSystem

end NativeBuild
