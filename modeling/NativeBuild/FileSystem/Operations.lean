import NativeBuild.FileSystem.Tree

/-!
# Operations on files

Reading, writing, making and removing, with the faults the system gives.  An
operation that fails half way keeps what it did before.

Main definitions:

- `isDirectory` and `isFile`: tests that follow symbolic links.
- `readText`, `writeFile`, `makeDirectoryAll`, `removeTree`: the operations a
  build needs.
-/

namespace NativeBuild.FileSystem

/-- An operation on files: its state survives a failure. -/
abbrev Operation (α : Type) := EStateM Fault FileSystem α

/-! ## Tests and reading -/

/-- The path leads to a directory. -/
def isDirectory (fs : FileSystem) (path : Path) : Bool :=
  match fs.locate .target path with
  | .ok (.present _ (.directory _)) => true
  | _ => false

/-- The path leads to a regular file. -/
def isFile (fs : FileSystem) (path : Path) : Bool :=
  match fs.locate .target path with
  | .ok (.present _ (.file _)) => true
  | _ => false

/-- The content of the file that the path leads to. -/
def readFile (fs : FileSystem) (path : Path) : Except Fault (List UInt8) :=
  match fs.locate .target path with
  | .ok (.present _ (.file content)) => .ok content
  | .ok (.present _ _) => .error .isADirectory
  | .ok (.absent ..) => .error .notFound
  | .error fault => .error fault

/-- The content of the file that the path leads to, as text. -/
def readText (fs : FileSystem) (path : Path) : Except Fault String :=
  match fs.readFile path with
  | .ok content =>
    match Text.decode? content with
    | some text => .ok text
    | none => .error .notText
  | .error fault => .error fault

/-! ## Making and writing -/

/-- Bind a name in the directory at a position. -/
def bindName (fs : FileSystem) (directory : List FileName) (name : FileName) (node : Node) :
    FileSystem :=
  fs.alter directory (Entries.put name node)

/-- Make one directory in an existing one. -/
def makeDirectory (path : Path) : Operation Unit := fun fs =>
  match fs.locate .directory path with
  | .ok (.present ..) => .error .alreadyExists fs
  | .ok (.absent directory name) => .ok () (fs.bindName directory name (.directory []))
  | .error fault => .error fault fs

/-- Make the first of the given paths, after the others where they are missing. -/
def makeFirst : List Path → Operation Unit
  | [] => throw .other
  | path :: above => fun fs =>
    if path.bytes = [] then .ok () fs
    else
      match makeDirectory path fs with
      | .ok () fs => .ok () fs
      | .error .notFound fs =>
        match makeFirst above fs with
        | .ok () fs =>
          match makeDirectory path fs with
          | .ok () fs => .ok () fs
          | .error fault fs => if fs.isDirectory path then .ok () fs else .error fault fs
        | .error fault fs => .error fault fs
      | .error fault fs => if fs.isDirectory path then .ok () fs else .error fault fs

/-- Make a directory and those above it; an existing directory is fine. -/
def makeDirectoryAll (path : Path) : Operation Unit :=
  makeFirst path.ancestors

/-- Write a file, in place of an old one's content. -/
def writeFile (path : Path) (content : List UInt8) : Operation Unit := fun fs =>
  match fs.locate .output path with
  | .ok (.present position (.file _)) =>
    match position.getLast? with
    | some name => .ok () (fs.bindName position.dropLast name (.file content))
    | none => .error .isADirectory fs
  | .ok (.present ..) => .error .isADirectory fs
  | .ok (.absent directory name) => .ok () (fs.bindName directory name (.file content))
  | .error fault => .error fault fs

/-- Make a symbolic link with the given target. -/
def makeLink (target path : Path) : Operation Unit := fun fs =>
  match fs.locate .entry path with
  | .ok (.present ..) => .error .alreadyExists fs
  | .ok (.absent directory name) => .ok () (fs.bindName directory name (.link target))
  | .error fault => .error fault fs

/-- Write a new file, and before it the directories above it. -/
def provideFile (path : Path) (content : List UInt8) : Operation Unit := do
  match path.parent? with
  | some directory => makeDirectoryAll directory
  | none => pure ()
  writeFile path content

/-! ## Removing -/

/-- Take a name out of the directory that holds the position. -/
def unbind (fs : FileSystem) (position : List FileName) : FileSystem :=
  match position.getLast? with
  | some name => fs.alter position.dropLast (Entries.erase name)
  | none => { fs with root := [] }

/-- Remove whatever has the path: a file, a symbolic link or a whole tree. -/
def remove (path : Path) : Operation Unit := fun fs =>
  match fs.locate .entry path with
  | .ok (.present position _) => .ok () (fs.unbind position)
  | .ok (.absent ..) => .error .notFound fs
  | .error fault => .error fault fs

/-- Remove an empty directory by its path.  The path names it outright: a final `.` or a
symbolic link with a slash after it does not. -/
def removeDirectory (path : Path) : Operation Unit := fun fs =>
  match fs.locate .directory path with
  | .ok (.present position (.directory _)) =>
    if path.endsInDot then .error .invalidArgument fs else .ok () (fs.unbind position)
  | .ok (.present ..) => .error .notADirectory fs
  | .ok (.absent ..) => .error .notFound fs
  | .error fault => .error fault fs

/-- Remove the tree below a path; of a symbolic link only the link goes, and a file is no
tree.  A directory is emptied before it is removed by its path, which may lead through
what was in it. -/
def removeTree (path : Path) : Operation Unit := fun fs =>
  match fs.locate .entry path with
  | .ok (.present position (.directory _)) =>
    removeDirectory path (fs.alter position fun _ => [])
  | .ok (.present position (.link _)) => .ok () (fs.unbind position)
  | .ok (.present _ (.file _)) => .error .notADirectory fs
  | .ok (.absent ..) => .error .notFound fs
  | .error fault => .error fault fs

/-- Remove the tree below a path; that there is none is fine. -/
def removeTreeIfAny (path : Path) : Operation Unit := fun fs =>
  match removeTree path fs with
  | .error .notFound fs => .ok () fs
  | result => result

end NativeBuild.FileSystem
