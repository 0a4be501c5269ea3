import NativeBuild.Shell.Limits
import NativeBuild.Shell.Script
import NativeBuild.Shell.Stream

/-!
# Processes of the shell

A running shell: its variables, its options, what its streams are, and where in the script
it is.  What a shell does are actions on its own state and on what all processes share; an
action may end the shell.

Main definitions:

- `Setting`: the options of a shell.
- `Process`: the state of a shell.
- `Act`: an action.
- `followedBy`: an action after another one, however that one ends.
-/

namespace NativeBuild.Shell

/-! ## Options -/

/-- An option of a shell. -/
inductive Setting where
  /-- A command that fails ends the shell. -/
  | errexit
  /-- Patterns are not replaced by names of files. -/
  | noglob
  | ignoreeof
  | interactive
  | monitor
  /-- Commands are read and not run. -/
  | noexec
  /-- The script is read from the input. -/
  | stdin
  /-- Commands are shown before they run. -/
  | xtrace
  /-- Lines are shown when they are read. -/
  | verbose
  | vi
  | emacs
  /-- Files that are there are not overwritten. -/
  | noclobber
  /-- Variables that are set are exported. -/
  | allexport
  | notify
  /-- A parameter that is not set is an error. -/
  | nounset
  /-- The rights of the owner are kept. -/
  | privileged
  | nolog
  | debug
deriving DecidableEq, Repr

namespace Setting

/-- All options, in the order in which they are listed. -/
def all : List Setting :=
  [.errexit, .noglob, .ignoreeof, .interactive, .monitor, .noexec, .stdin, .xtrace, .verbose,
    .vi, .emacs, .noclobber, .allexport, .notify, .nounset, .privileged, .nolog,
    .debug]

/-- The name of an option. -/
def name : Setting → String
  | .errexit => "errexit"
  | .noglob => "noglob"
  | .ignoreeof => "ignoreeof"
  | .interactive => "interactive"
  | .monitor => "monitor"
  | .noexec => "noexec"
  | .stdin => "stdin"
  | .xtrace => "xtrace"
  | .verbose => "verbose"
  | .vi => "vi"
  | .emacs => "emacs"
  | .noclobber => "noclobber"
  | .allexport => "allexport"
  | .notify => "notify"
  | .nounset => "nounset"
  | .privileged => "privileged"
  | .nolog => "nolog"
  | .debug => "debug"

/-- The letter of an option. -/
def letter? : Setting → Option Char
  | .errexit => some 'e'
  | .noglob => some 'f'
  | .ignoreeof => some 'I'
  | .interactive => some 'i'
  | .monitor => some 'm'
  | .noexec => some 'n'
  | .stdin => some 's'
  | .xtrace => some 'x'
  | .verbose => some 'v'
  | .vi => some 'V'
  | .emacs => some 'E'
  | .noclobber => some 'C'
  | .allexport => some 'a'
  | .notify => some 'b'
  | .nounset => some 'u'
  | .privileged => some 'p'
  | .nolog => none
  | .debug => none

/-- The option with a letter. -/
def ofLetter? (c : Char) : Option Setting :=
  all.find? fun setting => setting.letter? == some c

/-- The option with a name. -/
def ofName? (name : String) : Option Setting :=
  all.find? fun setting => setting.name == name

end Setting

/-! ## The state of a shell -/

/-- A variable. -/
structure Variable where
  /-- Its value; none where it is not set. -/
  value : Option String
  exported : Bool := false
  readonly : Bool := false
  /-- It stays known when it is not set any more. -/
  lasting : Bool := false
deriving Repr

/-- What is skipped after a command. -/
inductive Skip where
  /-- The loop around the command and so many around that one. -/
  | leave (more : Nat)
  /-- The rest of the turn of the loop around the command, after so many loops. -/
  | again (more : Nat)
  /-- The rest of the function or file; a status was given. -/
  | back (given : Bool)
deriving DecidableEq, Repr

/-- How a process ended. -/
inductive Ending where
  | exited (status : Nat)
  | killed (signal : Nat)
deriving DecidableEq, Repr

/-- The status that tells how a process ended. -/
def Ending.status : Ending → Nat
  | .exited status => status
  | .killed signal => 128 + signal

/-- What a local variable was before. -/
inductive Former where
  | variable (name : String) (before : Option Variable)
  | settings (before : List Setting)

/-- A job in the background. -/
structure Job where
  number : Nat
  /-- The process whose status counts. -/
  process : Nat
  ending : Option Ending := none
  /-- Its end was waited for. -/
  waited : Bool := false
deriving Repr

/-- The state of a shell. -/
structure Process where
  /-- Its number, and the numbers of the first shell of its kind and of its parent. -/
  number : Nat
  root : Nat
  parent : Nat
  /-- The streams by their numbers in the process. -/
  descriptors : List (Nat × Nat) := []
  /-- The directory it is in, and its path. -/
  directory : List FileName := []
  directoryPath : String := "/"
  mask : Nat := 0o022
  limits : Limits := Limits.usual
  /-- The variables by their names. -/
  bindings : List (String × Variable) := []
  functions : List (String × Script) := []
  aliases : List (String × String) := []
  /-- Commands that were looked up, and the places of their directories. -/
  hashed : List (String × Nat) := []
  settings : List Setting := []
  /-- Options of which the arguments of the shell have said nothing yet. -/
  unsettled : List Setting := []
  /-- The name of the script. -/
  name : String := "sh"
  arguments : List String := []
  /-- The next argument with options, and the place in the one before. -/
  optionIndex : Nat := 1
  optionOffset : Option Nat := none
  status : Nat := 0
  /-- The status of the last substitution of a simple command. -/
  substituted : Nat := 0
  /-- The line that complaints name. -/
  complaintLine : Nat := 0
  /-- The line up to which the script was read, and the one in the file of the shell. -/
  readLine : Nat := 1
  fileLine : Nat := 1
  /-- The script ended with the line that was read last. -/
  endRead : Bool := false
  /-- The command that complaints name. -/
  command : Option String := none
  /-- The loops around the command. -/
  loops : Nat := 0
  skip : Option Skip := none
  traps : List (Nat × String) := []
  /-- Signals that the process does not meet, whatever it says. -/
  ignored : List Nat := []
  /-- Signals whose traps have not run yet. -/
  caught : List Nat := []
  /-- The status to end with, while a trap runs. -/
  lastStatus : Option Nat := none
  /-- The functions that were called and have not ended. -/
  depth : Nat := 0
  /-- The local variables of the functions that run, the last ones first. -/
  locals : List (List Former) := []
  jobs : List Job := []
  background : Option Nat := none
  /-- What a command of the shell has written and not yet handed on, in pieces, the last
  first. -/
  held : List (List UInt8) := []
  /-- The mark in front of commands that are shown is being made. -/
  tracing : Bool := false

namespace Process

/-- An option is on. -/
def has (p : Process) (setting : Setting) : Bool :=
  p.settings.contains setting

/-- Someone talks to the process, which is no child of the shell that was started. -/
def isInteractive (p : Process) : Bool :=
  p.has .interactive && p.number == p.root

/-- The process with an option on or off. -/
def withSetting (p : Process) (setting : Setting) (on : Bool) : Process :=
  let others := p.settings.filter (· != setting)
  { p with settings := if on then setting :: others else others }

/-- The variable of a name. -/
def variableAt? (p : Process) (name : String) : Option Variable :=
  p.bindings.lookup name

/-- The value of a variable. -/
def value? (p : Process) (name : String) : Option String :=
  (p.variableAt? name).bind fun v => v.value

/-- The stream of a number. -/
def stream? (p : Process) (descriptor : Nat) : Option Nat :=
  p.descriptors.lookup descriptor

/-- The process with another stream of a number. -/
def withStream (p : Process) (descriptor : Nat) (stream : Option Nat) : Process :=
  let others := p.descriptors.filter fun entry => entry.1 != descriptor
  { p with
    descriptors := match stream with
      | some stream => (descriptor, stream) :: others
      | none => others }

/-- The separators of fields. -/
def separators (p : Process) : String :=
  (p.value? "IFS").getD " \t\n"

/-- The files as the process sees them. -/
def files (p : Process) (m : Machine) : FileSystem :=
  { m.files with cwd := p.directory }

end Process

/-! ## Actions -/

/-- Why a shell ends. -/
inductive Stop where
  /-- An error that it does not survive. -/
  | fault
  /-- It was asked to. -/
  | leave
  /-- Nothing is left to do. -/
  | done
  /-- Someone who talks to it interrupted it. -/
  | interrupted
  | killed (signal : Nat)
deriving DecidableEq, Repr

/-- A redirection with its names expanded; a text is expanded when it is redirected to. -/
inductive Target where
  | file (stream : Nat) (mode : FileMode) (name : String)
  | duplicate (stream : Nat) (source : Option Nat)
  | text (stream : Nat) (word : Word)

/-- The stream that is redirected. -/
def Target.stream : Target → Nat
  | .file stream .. => stream
  | .duplicate stream _ => stream
  | .text stream _ => stream

/-- A process that runs later. -/
structure Task where
  process : Process
  targets : List Target := []
  body : Script

/-- A shell with everything around it. -/
structure World where
  machine : Machine
  process : Process
  /-- What the process has started in the background and did not run yet. -/
  tasks : List Task := []

/-- An action of a shell. -/
abbrev Act := EStateM Stop World

/-- The process that acts. -/
def self : Act Process := do
  return (← get).process

/-- Change the process that acts. -/
def update (change : Process → Process) : Act Unit :=
  modify fun w => { w with process := change w.process }

/-- Set the status of the last command. -/
def setStatus (status : Nat) : Act Unit :=
  update fun p => { p with status }

/-- Change what processes share. -/
def updateMachine (change : Machine → Machine) : Act Unit :=
  modify fun w => { w with machine := change w.machine }

/-- The files as the process sees them. -/
def filesHere : Act FileSystem := do
  let w ← get
  return w.process.files w.machine

/-- Take an action; whatever way it ends, another one follows. -/
def followedBy {α : Type} (act : Act α) (after : Act Unit) : Act α := fun w =>
  match act w with
  | .ok a w =>
    match after w with
    | .ok () w => .ok a w
    | .error stop w => .error stop w
  | .error stop w =>
    match after w with
    | .ok () w => .error stop w
    | .error stop w => .error stop w

end NativeBuild.Shell
