import NativeBuild.Shell.Grammar
import NativeBuild.Shell.Variables

/-!
# Searching commands

What the name of a command stands for: a function, a command of the shell, or a program
that is looked for in the directories of the search path.

Main definitions:

- `Found`: what a name stands for.
- `findCommand`: the search.
- `programFrom`: the program that is run for a name.
- `describe`: what a shell says about a name.
-/

namespace NativeBuild.Shell

/-! ## Faults -/

/-- What is said of a fault; `missing` is said where there is nothing. -/
def faultReason (missing : String) : Fault → String
  | .notFound => missing
  | .notADirectory => missing
  | .permissionDenied => "Permission denied"
  | .alreadyExists => "File exists"
  | .isADirectory => "Is a directory"
  | .linkLoop => "Too many levels of symbolic links"
  | .nameTooLong => "File name too long"
  | .noDevice => "No such device or address"
  | _ => "Invalid argument"

/-- There is nothing that could be run. -/
def isMissing (fault : Fault) : Bool :=
  fault ∈ [.notFound, .notADirectory, .linkLoop, .nameTooLong]

/-! ## Search -/

/-- The commands of the shell that are not special. -/
def plainCommands : List String :=
  ["[", "alias", "bg", "cd", "chdir", "command", "echo", "false", "fg", "getopts", "hash",
    "jobs", "kill", "printf", "pwd", "read", "test", "true", "type", "ulimit", "umask",
    "unalias", "wait"]

/-- What the name of a command stands for. -/
inductive Found where
  | function (body : Script)
  /-- A command of the shell, which may be special. -/
  | builtin (special : Bool)
  /-- A program, with the place of its directory in the search path. -/
  | program (place : Nat)
  /-- A program by its path. -/
  | path
  | nothing (fault : Fault)

/-- The command of the shell that a name stands for, whether it is special. -/
def builtin? (name : String) : Option Bool :=
  if name ∈ specialNames then some true
  else if name ∈ plainCommands then some false
  else none

/-- The search path. -/
def searchPath (p : Process) : String :=
  (p.value? "PATH").getD ""

/-- The first program of a name in some directories, with its place among them. -/
def findProgram (fs : FileSystem) (name : String) :
    List String → Nat → Fault → Except Fault (Nat × Utility)
  | [], _, fault => .error fault
  | directory :: rest, place, fault =>
    match utilityAt fs (pathOf (inDirectory directory name)) with
    | .ok utility => .ok (place, utility)
    | .error .notFound => findProgram fs name rest (place + 1) fault
    | .error .notADirectory => findProgram fs name rest (place + 1) fault
    | .error refused => findProgram fs name rest (place + 1) refused

/-- The function or command of the shell that a name stands for; functions may not count. -/
def Process.known? (p : Process) (functions : Bool) (name : String) : Option Found :=
  match if functions then p.functions.lookup name else none with
  | some body => some (.function body)
  | none => (builtin? name).map .builtin

/-- What the name of a command stands for; a program that was found is remembered. -/
def findCommand (functions : Bool) (path name : String) : Act Found := do
  let p ← self
  let own := path = searchPath p
  match p.known? functions name with
  | some found => return found
  | none =>
    if name.toList.contains '/' then return .path
    else
      match if own then p.hashed.lookup name else none with
      | some place => return .program place
      | none =>
        match findProgram (← filesHere) name (searchDirectories path) 0 .notFound with
        | .error fault => return .nothing fault
        | .ok (place, _) =>
          if own then update fun p => { p with hashed := p.hashed ++ [(name, place)] }
          return .program place

/-- The program that is run for a name, from a place in the search path on. -/
def programFrom (fs : FileSystem) (path name : String) (place : Nat) : Except Fault Utility :=
  if name.toList.contains '/' then utilityAt fs (pathOf name)
  else (findProgram fs name ((searchDirectories path).drop place) place .notFound).map (·.2)

/-! ## Descriptions -/

/-- The place of a text in a table of so many lists. -/
def tablePlace (size : Nat) (text : String) : Nat :=
  let cs := text.toList
  ((cs.head?.map Char.toNat).getD 0 * 16 + (cs.map Char.toNat).foldl (· + ·) 0) % size

/-- Entries in the order of a table of so many lists. -/
def inTableOrder {α : Type} (size : Nat) (entries : List (String × α)) : List (String × α) :=
  entries.mergeSort fun a b => tablePlace size a.1 ≤ tablePlace size b.1

/-- Show an alias as a definition. -/
def sayAlias (name text : String) : Act Unit :=
  say s!"{name}={singleQuoted text}\n"

/-- The path of a program at a place of the search path. -/
def placePath (path name : String) (place : Nat) : String :=
  inDirectory ((searchDirectories path)[place]?.getD "") name

/-- Say what a name stands for, in a sentence or in short; the status tells whether it
stands for anything. -/
def describe (verbose : Bool) (path : Option String) (name : String) : Act Nat := do
  let p ← self
  let tell (sentence short : String) : Act Nat := do
    say ((if verbose then name ++ sentence else short) ++ "\n")
    return 0
  if name ∈ keywords then tell " is a shell keyword" name
  else
    match p.aliases.lookup name with
    | some text =>
      if verbose then tell s!" is an alias for {text}" ""
      else
        say "alias "
        sayAlias name text
        return 0
    | none =>
      let tracked := path.isNone && (p.hashed.lookup name).isSome
      let searched := path.getD (searchPath p)
      match ← findCommand true searched name with
      | .function _ => tell " is a shell function" name
      | .builtin true => tell " is a special shell builtin" name
      | .builtin false => tell " is a shell builtin" name
      | .program place =>
        let found := placePath searched name place
        tell ((if tracked then " is a tracked alias for " else " is ") ++ found) found
      | .path =>
        if (← filesHere).locate .target (pathOf name) matches .ok (.present ..) then
          tell s!" is {name}" name
        else missing name
      | .nothing _ => missing name
where
  /-- Say that a name stands for nothing. -/
  missing (name : String) : Act Nat := do
    if verbose then say s!"{name}: not found\n"
    return 127

end NativeBuild.Shell
