import NativeBuild.FileSystem.Operations
import NativeBuild.Host.Accounts

/-!
# The system around the files

A small system of its own: the programs that short rehearsals of a build are scripted
with, where they are, and what else is at the root beside the files of a workspace.

Main definitions:

- `Utility`: the programs.
- `systemEntries`: what is at the root.
- `findUtility`: the program that a name or a path stands for.
-/

namespace NativeBuild

/-- The programs of the system. -/
inductive Utility where
  | shell
  | succeed
  | fail
  | echo
  | concatenate
deriving DecidableEq, Repr

namespace Utility

/-- All programs. -/
def all : List Utility :=
  [.shell, .succeed, .fail, .echo, .concatenate]

/-- The name of a program. -/
def name : Utility → String
  | .shell => "sh"
  | .succeed => "true"
  | .fail => "false"
  | .echo => "echo"
  | .concatenate => "cat"

end Utility

/-- The position of the directory of the programs. -/
def programDirectory : List FileName :=
  [Text.utf8 "usr", Text.utf8 "bin"]

/-- The directories in which programs are looked for where none are named. -/
def defaultSearchPath : String :=
  "/usr/local/sbin:/usr/local/bin:/usr/sbin:/usr/bin:/sbin:/bin"

/-- Entries with texts as their names. -/
def namedEntries (entries : List (String × Node)) : Entries :=
  entries.map fun entry => (Text.utf8 entry.1, entry.2)

/-- The names of the devices. -/
def deviceNames : List String :=
  ["full", "null", "ptmx", "random", "tty", "urandom", "zero"]

/-- Directories with nothing in them. -/
def emptyDirectories (names : List String) : List (String × Node) :=
  names.map fun name => (name, .directory [])

/-- A link to a path. -/
def linkTo (name path : String) : String × Node :=
  (name, .link (Path.ofString path))

/-- A directory of a name. -/
def directoryOf (name : String) (entries : List (String × Node)) : String × Node :=
  (name, .directory (namedEntries entries))

/-- A file that is a program starts with these bytes. -/
def programBytes : List UInt8 :=
  [0x7f, 0x45, 0x4c, 0x46]

/-- What is at the root beside the tree of files: devices, the programs under two paths,
the users, and directories that every system has. -/
def systemEntries : Entries :=
  let programs := Utility.all.map fun utility => (utility.name, Node.file programBytes)
  let devices := deviceNames.map fun name => (name, Node.file [])
  let linked := ["bin", "lib", "lib64", "sbin"].map fun name => linkTo name ("usr/" ++ name)
  namedEntries <|
    linked ++ emptyDirectories ["boot", "home", "media", "mnt", "opt", "root", "run", "srv",
      "sys", "tmp"] ++
    [directoryOf "dev" (linkTo "fd" "/proc/self/fd" :: devices ++ emptyDirectories
        ["pts", "shm"]),
      directoryOf "proc" [directoryOf "self" (emptyDirectories ["fd"])],
      directoryOf "etc" [("passwd", .file (Text.utf8 accountLines))],
      directoryOf "usr" (directoryOf "bin" programs :: directoryOf "local" (emptyDirectories
        ["bin", "etc", "games", "include", "lib", "sbin", "share", "src"]) ::
        emptyDirectories ["games", "include", "lib", "lib64", "libexec", "sbin", "share",
          "src"]),
      directoryOf "var" (emptyDirectories ["backups", "cache", "lib", "local", "log", "mail",
        "opt", "spool", "tmp"])]

/-- The files with the system around them. -/
def FileSystem.withSystem (fs : FileSystem) : FileSystem :=
  { fs with root := fs.root ++ systemEntries }

/-- The files without the system around them, of which there were so many entries at the
root. -/
def FileSystem.withoutSystem (fs : FileSystem) (count : Nat) : FileSystem :=
  { fs with root := fs.root.take count }

/-- The program at a position. -/
def utilityOf? (position : List FileName) : Option Utility :=
  Utility.all.find? fun utility => position == programDirectory ++ [Text.utf8 utility.name]

/-- The program at a path, among files that have the system around them. -/
def utilityAt (fs : FileSystem) (path : Path) : Except Fault Utility :=
  match fs.locate .target path with
  | .ok (.present position _) =>
    match utilityOf? position with
    | some utility => .ok utility
    | none => .error .permissionDenied
  | .ok (.absent ..) => .error .notFound
  | .error fault => .error fault

/-- The directories of a search path, which stand between colons. -/
def searchDirectories (path : String) : List String :=
  path.splitOn ":"

/-- The path of a name in a directory; the directory without a name is the current one. -/
def inDirectory (directory name : String) : String :=
  if directory = "" then name else directory ++ "/" ++ name

/-- The first program of a name in some directories.  That there is nothing of the name in
a directory does not matter; where something is no program, the search goes on too, but
its end is another fault. -/
def findInDirectories (fs : FileSystem) (name : String) :
    List String → Fault → Except Fault Utility
  | [], fault => .error fault
  | directory :: rest, fault =>
    match utilityAt fs (Path.ofString (inDirectory directory name)) with
    | .ok utility => .ok utility
    | .error .permissionDenied => findInDirectories fs name rest .permissionDenied
    | .error .notFound => findInDirectories fs name rest fault
    | .error .notADirectory => findInDirectories fs name rest fault
    | .error refused => .error refused

/-- The program that a name or a path stands for; a name is looked up in the directories of
a search path. -/
def findUtility (fs : FileSystem) (searchPath name : String) : Except Fault Utility :=
  if name.toList.contains '/' then utilityAt fs (Path.ofString name)
  else if name = "" then .error .notFound
  else if FileSystem.maxName < (Text.utf8 name).length then .error .nameTooLong
  else findInDirectories fs name (searchDirectories searchPath) .notFound

end NativeBuild
