import NativeBuild.FileSystem.Fault
import NativeBuild.Path.Component

/-!
# Trees of files

A file system is a tree of named nodes together with the current directory.  A
position is a list of names from the root; a path is resolved to a position by
walking its pieces and following symbolic links.

Main definitions:

- `Node`: a file, a symbolic link or a directory.
- `Node.at?` and `Node.alter`: reading and changing a tree at a position.
- `Purpose`: what a path is looked up for.
- `FileSystem.locate`: what a path leads to.

Main results:

- Theorems `get?_put_same`, `get?_put_other`, `get?_erase_same` and
  `get?_erase_other`: what the operations on a directory do to its look-up.
-/

namespace NativeBuild

/-! ## Nodes -/

/-- A node of a tree of files. -/
inductive Node where
  /-- A regular file with its content. -/
  | file (content : List UInt8)
  /-- A symbolic link with the path it holds. -/
  | link (target : Path)
  /-- A directory with its named entries. -/
  | directory (entries : List (FileName × Node))
deriving Repr, Inhabited

/-- The entries of a directory. -/
abbrev Entries := List (FileName × Node)

namespace Entries

/-- The node of an entry's name. -/
def get? (name : FileName) : Entries → Option Node
  | [] => none
  | (other, node) :: rest => if other = name then some node else get? name rest

/-- The directory with the name bound to the node. -/
def put (name : FileName) (node : Node) : Entries → Entries
  | [] => [(name, node)]
  | (other, old) :: rest =>
    if other = name then (name, node) :: rest else (other, old) :: put name node rest

/-- The directory without the name. -/
def erase (name : FileName) (entries : Entries) : Entries :=
  entries.filter fun entry => entry.1 != name

@[simp] theorem get?_put_same (name : FileName) (node : Node) (entries : Entries) :
    (entries.put name node).get? name = some node := by
  induction entries with
  | nil => simp [put, get?]
  | cons entry rest ih =>
    obtain ⟨other, old⟩ := entry
    by_cases h : other = name <;> simp [put, get?, h, ih]

@[simp] theorem get?_put_other {name other : FileName} (node : Node) (entries : Entries)
    (h : name ≠ other) : (entries.put name node).get? other = entries.get? other := by
  induction entries with
  | nil => simp [put, get?, h]
  | cons entry rest ih =>
    obtain ⟨first, old⟩ := entry
    by_cases h₁ : first = name
    · subst h₁; simp [put, get?, h]
    · by_cases h₂ : first = other
      · subst h₂; simp [put, get?, h₁]
      · simp [put, get?, h₁, h₂, ih]

@[simp] theorem get?_erase_same (name : FileName) (entries : Entries) :
    (entries.erase name).get? name = none := by
  induction entries with
  | nil => rfl
  | cons entry rest ih =>
    obtain ⟨other, old⟩ := entry
    by_cases h : other = name
    · simpa [erase, h] using ih
    · have h' : (other != name) = true := by simp [h]
      simpa [erase, h', get?, h] using ih

@[simp] theorem get?_erase_other {name other : FileName} (entries : Entries)
    (h : name ≠ other) : (entries.erase name).get? other = entries.get? other := by
  induction entries with
  | nil => rfl
  | cons entry rest ih =>
    obtain ⟨first, old⟩ := entry
    simp only [erase] at ih
    by_cases h₁ : first = name
    · subst h₁
      simpa [erase, get?, h] using ih
    · have h' : (first != name) = true := by simp [h₁]
      by_cases h₂ : first = other
      · subst h₂; simp [erase, h', get?]
      · simp [erase, h', get?, h₂, ih]

end Entries

namespace Node

/-- The node at a position below this one. -/
def at? : List FileName → Node → Option Node
  | [], node => some node
  | name :: rest, .directory entries => (Entries.get? name entries).bind (at? rest)
  | _ :: _, _ => none

/-- The tree with the entries of the directory at a position changed. -/
def alter (change : Entries → Entries) : List FileName → Node → Node
  | [], .directory entries => .directory (change entries)
  | name :: rest, .directory entries =>
    match Entries.get? name entries with
    | some node => .directory (Entries.put name (alter change rest node) entries)
    | none => .directory entries
  | _, node => node

end Node

/-! ## File systems -/

/-- A tree of files with a current directory. -/
structure FileSystem where
  root : Entries := []
  cwd : List FileName := []
deriving Repr, Inhabited

/-- What a path leads to. -/
inductive Location where
  /-- A node, with its position. -/
  | present (position : List FileName) (node : Node)
  /-- A free name in a directory. -/
  | absent (directory : List FileName) (name : FileName)
deriving Repr, Inhabited

/-- What a path is looked up for, which decides how its last name is taken. -/
inductive Purpose where
  /-- The entry of the last name, which may be a symbolic link. -/
  | entry
  /-- The entry of the last name, for a directory; slashes after the name do not count. -/
  | directory
  /-- The node behind the last name. -/
  | target
  /-- The file behind the last name, to be written; no slash may follow that name. -/
  | output
deriving DecidableEq, Repr

/-- A symbolic link under the last name is followed. -/
def Purpose.follows : Purpose → Bool
  | .entry => false
  | .directory => false
  | .target => true
  | .output => true

namespace FileSystem

/-- The node at a position from the root. -/
def at? (fs : FileSystem) (position : List FileName) : Option Node :=
  Node.at? position (.directory fs.root)

/-- The file system with the entries of the directory at a position changed. -/
def alter (fs : FileSystem) (position : List FileName) (change : Entries → Entries) :
    FileSystem :=
  match Node.alter change position (.directory fs.root) with
  | .directory entries => { fs with root := entries }
  | _ => fs

/-- How long a name may be. -/
def maxName : Nat := 255

/-- How long a path may be. -/
def maxPath : Nat := 4095

/-- How many symbolic links one path may lead through. -/
def maxLinks : Nat := 40

/-- Walk the pieces of a path from a position; `expand` resolves the pieces of a symbolic
link with those after it.  That a name to be written has a slash after it is a fault even
before it is looked up; any other such name must be there. -/
def walk (fs : FileSystem) (purpose : Purpose)
    (expand : List FileName → List FileName → Except Fault Location) :
    List FileName → List FileName → Except Fault Location
  | position, [] =>
    match fs.at? position with
    | some node => .ok (.present position node)
    | none => .error .notFound
  | position, piece :: rest =>
    match fs.at? position with
    | some (.directory entries) =>
      if Path.isTrivial piece then fs.walk purpose expand position rest
      else if piece = [dot, dot] then fs.walk purpose expand position.dropLast rest
      else if purpose = .output ∧ rest ≠ [] ∧ rest.all (· == []) then .error .isADirectory
      else if maxName < piece.length then .error .nameTooLong
      else
        match Entries.get? piece entries with
        | none => if rest = [] then .ok (.absent position piece) else .error .notFound
        | some (.link target) =>
          if rest = [] ∧ purpose.follows = false then
            .ok (.present (position ++ [piece]) (.link target))
          else
            expand (if target.isRooted then [] else position)
              (Path.pieces target.bytes ++ rest)
        | some _ => fs.walk purpose expand (position ++ [piece]) rest
    | some _ => .error .notADirectory
    | none => .error .notFound

/-- Walk pieces through at most the given number of symbolic links. -/
def resolve (fs : FileSystem) (purpose : Purpose) :
    Nat → List FileName → List FileName → Except Fault Location
  | 0, position, pieces => fs.walk purpose (fun _ _ => .error .linkLoop) position pieces
  | links + 1, position, pieces => fs.walk purpose (fs.resolve purpose links) position pieces

/-- What a path leads to from the current directory. -/
def locate (fs : FileSystem) (purpose : Purpose) (path : Path) : Except Fault Location :=
  if path.bytes = [] then .error .notFound
  else if 0 ∈ path.bytes then .error .zeroByte
  else if maxPath < path.bytes.length then .error .nameTooLong
  else fs.resolve purpose maxLinks (if path.isRooted then [] else fs.cwd)
    (Path.pieces (if purpose = .directory then path.withoutLastSlashes else path).bytes)

end FileSystem

end NativeBuild
