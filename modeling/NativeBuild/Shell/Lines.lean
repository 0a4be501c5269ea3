import NativeBuild.Shell.Grammar
import NativeBuild.Shell.Redirection

/-!
# Running lines

Scripts are read and run line by line, since a line may change how the next one is read.
What is run is handed to a runner, which the modules that follow build up; traps and the
end of a shell are scripts too.

Main definitions:

- `Mode`: how a command is run.
- `Work`: what a runner carries out.
- `runText` and `runFile`: the lines of a text and of a file.
- `runTraps`: the traps of signals that came.
- `endShell`: what a shell does at its end.
-/

namespace NativeBuild.Shell

/-- How a command is run. -/
structure Mode where
  /-- Its outcome is tested, so that it may fail. -/
  tested : Bool := false
  /-- The shell ends after it. -/
  last : Bool := false
deriving DecidableEq, Repr

/-- What a runner carries out. -/
inductive Work where
  | script (mode : Mode) (script : Script)
  /-- The process ends after a script, up to where some streams are redirected. -/
  | lastScript (mode : Mode) (targets : List Target) (script : Script)
  /-- The process becomes a new shell with a name and arguments. -/
  | newShell (name : String) (arguments : List String)

/-- How work is carried out; the status of the process tells the outcome. -/
abbrev Runner := Work → Act Unit

/-! ## Lines -/

/-- Where a script comes from. -/
inductive Origin where
  /-- A text in another script. -/
  | text
  /-- A file that another script names. -/
  | file
  /-- The file that the shell was started with. -/
  | shell
deriving DecidableEq, Repr

/-- A script that is partly run. -/
structure Source where
  origin : Origin
  text : List Char
  /-- What is left of the texts of aliases, in front of the text. -/
  inserted : List Inserted := []
  line : Nat := 1
deriving Repr

/-- What the next line of a script is. -/
inductive NextLine where
  | finish
  | run (script : Script) (isLast : Bool) (rest : Source)

/-- The first line of a text. -/
def firstLine (text : List Char) : List Char :=
  text.takeWhile (· != '\n') ++ (text.dropWhile (· != '\n')).take 1

/-- The text up to a place where less is left, or up to the end of the line there. -/
def textUpTo (text rest : List Char) (wholeLine : Bool) : List Char :=
  let taken := text.take (text.length - rest.length)
  if wholeLine ∧ taken.getLast? ≠ some '\n' then taken ++ firstLine rest else taken

/-- The lines that the reading has come to.  While texts of aliases are left, it has come to
the whole line that they stand in. -/
def linesRead (source : Source) (rest : Reading) (wholeLine : Bool) : List Char :=
  let lines := textUpTo source.text rest.text (wholeLine || !rest.inserted.isEmpty)
  if source.inserted.isEmpty then lines else lines.drop (firstLine lines).length

/-- Show lines. -/
def showText (lines : List Char) : Act Unit :=
  if lines = [] then return () else sayError (String.ofList lines)

/-- Show lines one after another, and ask for so many of them that come after the first. -/
def showLines (ask : Act Unit) : Nat → List Char → Act Unit
  | 0, lines => showText lines
  | n + 1, lines => do
    let line := firstLine lines
    showText line
    ask
    showLines ask n (lines.drop line.length)

/-- Note how far a script was read, ask for the lines after the first, and show those of a
file if they are to be shown. -/
def noteRead (source : Source) (ask : Act Unit) (rest : Reading) (wholeLine : Bool) :
    Act Unit := do
  let shown := source.origin ≠ .text && (← self).has .verbose
  update fun p => { p with endRead := rest.isOver }
  showLines ask rest.moreLines (if shown then linesRead source rest wholeLine else [])

/-- Note the line up to which a script was read. -/
def noteLine (source : Source) (line : Nat) : Act Unit :=
  update fun p => { p with
    readLine := line
    fileLine := if source.origin = .shell then line else p.fileLine }

/-- Read the next line of a script, and ask for the lines that belong to it.  That it cannot
be read ends the shell. -/
def takeLine (source : Source) (ask : Act Unit) : Act NextLine := do
  let { text, inserted, line, .. } := source
  match readLine { text, inserted, line, aliases := (← self).aliases } with
  | .finish rest =>
    noteRead source ask rest false
    return .finish
  | .malformed failed rest =>
    noteRead source ask rest true
    faultOfScript rest.line failed.reason
  | .commands script rest =>
    noteRead source ask rest false
    noteLine source rest.line
    let { text, inserted, line, .. } := rest
    return .run script rest.isOver { source with text, inserted, line }

/-- Run lines of a script, at most so many, until it ends or a command says so; the status
is that of the last command, or the given one. -/
def runLines (run : Runner) (mode : Mode) : Nat → Source → Nat → Act Nat
  | 0, _, status => return status
  | n + 1, source, status => do
    match ← takeLine source (return ()) with
    | .finish => return status
    | .run script isLast rest =>
      run (.script { mode with last := mode.last && isLast } script)
      let p ← self
      let status := if script.isSkip then status else p.status
      if p.skip.isSome then return status else runLines run mode n rest status

/-- Keep the line up to which the script around was read. -/
def keepingLine {α : Type} (act : Act α) : Act α := do
  let line := (← self).readLine
  followedBy act (update fun p => { p with readLine := line })

/-- Run the lines of a text. -/
def runText (run : Runner) (mode : Mode) (text : String) : Act Nat :=
  keepingLine (runLines run mode maxSteps { origin := .text, text := text.toList } 0)

/-- Nothing of a function or file is skipped any more. -/
def endReturn : Act Unit :=
  update fun p =>
    match p.skip with
    | some (.back _) => { p with skip := none }
    | _ => p

/-- The text of a file; zero bytes do not count. -/
def textOfFile (content : List UInt8) : List Char :=
  ofBytes (content.filter (· != 0))

/-- Run the lines of a file that a script names. -/
def runFile (run : Runner) (content : List UInt8) : Act Nat := do
  let source : Source := { origin := .file, text := textOfFile content }
  let status ← keepingLine (runLines run {} maxSteps source 0)
  endReturn
  return status

/-! ## Traps -/

/-- Run the trap of a signal; the status afterwards is the one before, unless the trap gave
another one. -/
def runTrap (run : Runner) (status signal : Nat) : Act Unit := do
  let p ← self
  if p.skip.isNone then
    update fun p => { p with caught := p.caught.filter (· != signal) }
    match p.traps.lookup signal with
    | some text =>
      let _ ← runText run {} text
      if (← self).skip ≠ some (.back true) then setStatus status
    | none => return ()

/-- Run the traps of the signals that came. -/
def runTraps (run : Runner) : Act Unit := do
  meetSignals
  let p ← self
  if !p.caught.isEmpty then
    let before := p.lastStatus
    let status := before.getD p.status
    update fun p => { p with lastStatus := some status }
    (p.caught.mergeSort (· ≤ ·)).forM (runTrap run status)
    update fun p => { p with lastStatus := before }

/-! ## The end of a shell -/

/-- A shell that was asked to end has the status that it was given, if it was. -/
def settleStatus (stop : Option Stop) : Act Unit :=
  update fun p =>
    let status := match stop, p.lastStatus with
      | some .leave, some status => status
      | _, _ => p.status
    { p with status, lastStatus := none, skip := none, loops := 0, tracing := false }

/-- Run the trap of the end, if there is one. -/
def runEndTrap (run : Runner) : Act Unit := do
  let p ← self
  match p.traps.lookup 0 with
  | none => return ()
  | some text =>
    update fun p => { p with
      traps := p.traps.filter fun entry => entry.1 != 0, lastStatus := some p.status }
    let _ ← runText run {} text
    update fun p => { p with status := p.lastStatus.getD p.status }

/-- Take an action and give the way it stopped, if it did. -/
def stopOf (act : Act Unit) : Act (Option Stop) := fun w =>
  match act w with
  | .ok () w => .ok none w
  | .error stop w => .ok (some stop) w

/-- What a shell does at its end, after it stopped in some way; how it ended. -/
def endShell (run : Runner) (stop : Option Stop) : Act Ending := do
  match stop with
  | some (.killed signal) => return .killed signal
  | stop =>
    settleStatus stop
    match ← stopOf (runEndTrap run) with
    | some (.killed signal) => return .killed signal
    | stop =>
      settleStatus stop
      return .exited ((← self).status % 256)

end NativeBuild.Shell
