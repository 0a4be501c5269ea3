import NativeBuild.Shell.Builtin.Flags
import NativeBuild.Shell.Mode

/-!
# Commands about the surroundings

The commands `cd`, `pwd`, `umask`, `ulimit` and `times`.

Main definitions:

- `resolvedPath`: a path seen from another one, without its dots.
- `changeDirectory` and `printDirectory`: the directory of the process.
- `maskCommand`: what is kept from the modes of new files.
- `limitCommand`: how much the process may use.
-/

namespace NativeBuild.Shell

/-! ## Directories -/

/-- A path by its pieces, the last first, with more pieces behind it; dots are resolved. -/
def resolvedPieces : List String → List String → List String
  | before, [] => before
  | before, piece :: rest =>
    if piece = "" ∨ piece = "." then resolvedPieces before rest
    else if piece = ".." then resolvedPieces before.tail rest
    else resolvedPieces (piece :: before) rest

/-- A path seen from another one, without its dots. -/
def resolvedPath (start path : String) : String :=
  let before := if path.startsWith "/" then [] else resolvedPieces [] (start.splitOn "/")
  "/" ++ "/".intercalate (resolvedPieces before (path.splitOn "/")).reverse

/-- The path of a position. -/
def pathOfPosition (position : List FileName) : String :=
  "/" ++ "/".intercalate (position.map fun name => String.ofList (ofBytes name))

/-- The position of the directory at a path. -/
def directoryAt? (fs : FileSystem) (path : String) : Option (List FileName) :=
  match fs.locate .target (pathOf path) with
  | .ok (.present position (.directory _)) => some position
  | _ => none

/-- Go to a directory; whether there is one. -/
def goTo (path : String) (physical : Bool) : Act Bool := do
  let p ← self
  let target := if physical then path else resolvedPath p.directoryPath path
  match directoryAt? (← filesHere) target with
  | none => return false
  | some position =>
    let directoryPath := if physical then pathOfPosition position else target
    setVariable "OLDPWD" (some p.directoryPath) { exported := true }
    update fun p => { p with directory := position, directoryPath }
    setVariable "PWD" (some directoryPath) { exported := true }
    return true

/-- A path is not looked up in other directories. -/
def isFixedPath (path : String) : Bool :=
  path.startsWith "/" || (path.splitOn "/").head? ∈ [some ".", some ".."]

/-- Where a directory may be, and whether it is shown when it is there. -/
def directoryCandidates (p : Process) (path : String) : List (String × Bool) :=
  let found :=
    if isFixedPath path then []
    else
      match p.value? "CDPATH" with
      | none => []
      | some places => (searchDirectories places).map fun place =>
          (inDirectory place path, place != "")
  found ++ [(path, false)]

/-- Go to the first directory that is there; whether it is shown, if there is any. -/
def goToFirst (physical : Bool) : List (String × Bool) → Act (Option Bool)
  | [] => return none
  | (path, shown) :: rest => do
    if ← goTo path physical then return some shown else goToFirst physical rest

/-- The flags of commands about directories say that links do not count. -/
def isPhysical (flags : List Flag) : Bool :=
  flags.getLast?.map (·.letter) == some 'P'

/-- The command `cd`. -/
def changeDirectory (fields : List String) : Act Nat := do
  let (flags, fields) ← readFlags { letters := ['L', 'P'] } fields
  let p ← self
  let (given, back) :=
    match fields with
    | [] => ((p.value? "HOME").getD "", false)
    | "-" :: _ => ((p.value? "OLDPWD").getD "", true)
    | path :: _ => (path, false)
  let path := if given = "" then "." else given
  match ← goToFirst (isPhysical flags) (directoryCandidates p path) with
  | none => fault s!"can't cd to {given}"
  | some shown =>
    if shown || back then say ((← self).directoryPath ++ "\n")
    return 0

/-- The command `pwd`. -/
def printDirectory (fields : List String) : Act Nat := do
  let (flags, _) ← readFlags { letters := ['L', 'P'] } fields
  let p ← self
  say ((if isPhysical flags then pathOfPosition p.directory else p.directoryPath) ++ "\n")
  return 0

/-! ## Modes -/

/-- The bits of a mode that a mask leaves, and the mask that leaves them. -/
def withoutMask (mask : Nat) : Nat :=
  Mode.allBits - mask

/-- The command `umask`. -/
def maskCommand (fields : List String) : Act Nat := do
  let (flags, fields) ← readFlags { letters := ['S'] } fields
  let mask := (← self).mask
  match fields with
  | [] =>
    say ((if flags = [] then Mode.showOctal mask else Mode.showMode (withoutMask mask)) ++ "\n")
    return 0
  | text :: _ =>
    if (text.toList.head?.map Char.isDigit).getD false then
      if text.toList.all (isDigitOf 8) then
        update fun p => { p with mask := numberIn 8 text.toList % 512 }
        return 0
      else fault s!"Illegal number: {text}"
    else
      match Mode.changeMode? (withoutMask mask) text with
      | some mode =>
        update fun p => { p with mask := withoutMask mode }
        return 0
      | none => fault s!"Illegal mode: {text}"

/-! ## Limits and times -/

/-- The flags of `ulimit`: which of two values is meant, all limits, or one of them. -/
def limitFlags : KnownFlags where
  letters := ['H', 'S', 'a'] ++ Resource.all.map Resource.letter

/-- Show a limit: the value that holds, or the one up to which it may be raised. -/
def sayLimit (hard : Bool) (resource : Resource) : Act Unit := do
  let limit := (← self).limits resource
  say (showLimit resource (if hard then limit.hard else limit.soft) ++ "\n")

/-- Ask for another limit: the value that holds, the one up to which it may be raised, or
both. -/
def changeLimit (hard soft : Bool) (resource : Resource) (text : String) : Act Unit := do
  match readLimit? resource text with
  | none => fault "bad number"
  | some value =>
    let p ← self
    let old := p.limits resource
    let limit : Limit :=
      { soft := if soft then value else old.soft, hard := if hard then value else old.hard }
    match p.limits.change resource limit with
    | .ok limits => update fun p => { p with limits }
    | .error failed =>
      let reason := failed.reason
      fault s!"error setting limit ({reason})"

/-- The command `ulimit`. -/
def limitCommand (fields : List String) : Act Nat := do
  let (flags, fields) ← readFlags limitFlags fields
  let letters := flags.map (·.letter)
  let which := (letters.filter (· ∈ ['H', 'S'])).getLast?
  let resource := ((letters.filterMap Resource.ofLetter?).getLast?).getD .file
  match fields, letters.contains 'a' with
  | [], false => sayLimit (which == some 'H') resource
  | [], true =>
    Resource.all.forM fun resource => do
      say (padded 20 resource.title ++ " ")
      sayLimit (which == some 'H') resource
  | [text], false => changeLimit (which != some 'S') (which != some 'H') resource text
  | _, _ => fault "too many arguments"
  return 0

/-- The command `times`: no time has passed. -/
def timesCommand : Act Nat := do
  say "0m0.000000s 0m0.000000s\n0m0.000000s 0m0.000000s\n"
  return 0

end NativeBuild.Shell
