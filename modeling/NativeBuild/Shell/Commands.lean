import NativeBuild.Shell.Builtin.Names
import NativeBuild.Shell.Builtin.Output
import NativeBuild.Shell.Builtin.Settings
import NativeBuild.Shell.Builtin.Surroundings
import NativeBuild.Shell.Call
import NativeBuild.Shell.Programs

/-!
# Simple commands

A simple command has words, assignments and redirections.  It calls a function, a command
of the shell or a program, or only makes its assignments.

Main definitions:

- `builtin`: the commands of the shell.
- `callFunction`: functions.
- `runSimple`: a simple command.
-/

namespace NativeBuild.Shell

/-! ## Commands that run others -/

/-- The path of a file of commands, which is looked for in the search path. -/
def sourcePath (name : String) : Act String := do
  if name.toList.contains '/' then return name
  else
    let fs ← filesHere
    let found := (searchDirectories (searchPath (← self))).findSome? fun directory =>
      let path := inDirectory directory name
      match fs.locate .target (pathOf path) with
      | .ok (.present _ (.file _)) => some path
      | _ => none
    match found with
    | some path => return path
    | none => fault s!"{name}: not found"

/-- What a file of commands holds. -/
def readSource (path : String) : Act (List UInt8) := do
  let stream ← openFile .read path
  return ((← get).machine.pending stream).getD []

/-- The command of a single dot. -/
def runSource (run : Runner) (fields : List String) : Act Nat := do
  match ← withoutFlags fields with
  | [] => return 0
  | name :: _ =>
    let path ← sourcePath name
    let content ← readSource path
    update fun p => { p with command := some path }
    runFile run content

/-- The command `exec`. -/
def execCommand (run : Runner) (fields : List String) : Act Nat := do
  match fields with
  | [] => return 0
  | name :: arguments => becomeProgram run (searchPath (← self)) name 0 arguments

/-! ## Commands that skip others -/

/-- The command `exit`. -/
def exitCommand (fields : List String) : Act Nat := do
  match fields with
  | [] => throw .leave
  | text :: _ =>
    let status ← requireNumber text
    update fun p => { p with lastStatus := some status }
    throw .leave

/-- The command `return`. -/
def returnCommand (fields : List String) : Act Nat := do
  match fields with
  | [] =>
    update fun p => { p with skip := some (.back false) }
    return (← self).status
  | text :: _ =>
    let status ← requireNumber text
    update fun p => { p with skip := some (.back true) }
    return status

/-- The commands `break` and `continue`. -/
def leaveLoops (skip : Nat → Skip) (fields : List String) : Act Nat := do
  let wanted ← match fields with
    | [] => pure 1
    | text :: _ => do
      let n ← requireNumber text
      if n = 0 then fault s!"Illegal number: {text}" else pure n
  match min wanted (← self).loops with
  | 0 => return 0
  | n + 1 =>
    update fun p => { p with skip := some (skip n) }
    return 0

/-! ## All commands of the shell -/

/-- Carry out a command of the shell; its status. -/
def builtin (run : Runner) (mode : Mode) (name : String) (fields : List String) : Act Nat :=
  match name with
  | "." => runSource run fields
  | ":" => return 0
  | "[" => test "[" fields
  | "alias" => aliasCommand fields
  | "bg" => refuseJob fields
  | "break" => leaveLoops .leave fields
  | "cd" => changeDirectory fields
  | "chdir" => changeDirectory fields
  | "command" => commandAbout fields
  | "continue" => leaveLoops .again fields
  | "echo" => echo fields
  | "eval" =>
    if fields = [] then return 0
    else runText run { tested := mode.tested } (spaced fields)
  | "exec" => execCommand run fields
  | "exit" => exitCommand fields
  | "export" => markVariables "export" fields
  | "false" => return 1
  | "fg" => refuseJob fields
  | "getopts" => getopts fields
  | "hash" => hashCommand fields
  | "jobs" => listJobs fields
  | "kill" => killCommand fields
  | "local" => declareLocal fields
  | "printf" => printf fields
  | "pwd" => printDirectory fields
  | "read" => readInput fields
  | "readonly" => markVariables "readonly" fields
  | "return" => returnCommand fields
  | "set" => setCommand fields
  | "shift" => shift fields
  | "test" => test "test" fields
  | "times" => timesCommand
  | "trap" => trapCommand fields
  | "true" => return 0
  | "type" => typeCommand fields
  | "ulimit" => limitCommand fields
  | "umask" => maskCommand fields
  | "unalias" => unalias fields
  | "unset" => unset fields
  | "wait" => waitCommand run fields
  | _ => return 0

/-- Carry out a command of the shell and hand on what it wrote. -/
def runBuiltin (run : Runner) (mode : Mode) (name : String) (fields : List String) :
    Act Unit := do
  let before := (← self).command
  update fun p => { p with command := some name }
  let act : Act Unit := do
    let status ← builtin run mode name fields
    if ← handOn then setStatus status
    else
      let command := (← self).command.getD name
      warn s!"{command}: I/O error"
      setStatus (status ||| 1)
  followedBy act (update fun p => { p with command := before, held := [] })

/-! ## Functions -/

/-- Functions may call each other so deep. -/
def deepestCall : Nat := 1000

/-- Call a function.  A call that is too deep counts as one that never ends. -/
def callFunction (run : Runner) (mode : Mode) (body : Script) (arguments : List String) :
    Act Unit := do
  let before ← self
  update fun p => { p with depth := p.depth + 1 }
  if before.depth ≥ deepestCall then
    fault s!"Maximum function recursion depth ({deepestCall}) reached"
  update fun p => { p.withArguments arguments with loops := 0 }
  followedBy (run (.script { tested := mode.tested } body)) do
    update fun p => { p with
      arguments := before.arguments
      optionIndex := before.optionIndex
      optionOffset := before.optionOffset
      loops := before.loops
      depth := p.depth - 1 }
    endReturn

/-! ## Showing commands -/

/-- Take an action; none where a fault ended it. -/
def attempt {α : Type} (act : Act α) : Act (Option α) := fun w =>
  match act w with
  | .ok a w => .ok (some a) w
  | .error .fault w => .ok none w
  | .error stop w => .error stop w

/-- Take an action; whether no fault ended it. -/
def survives (act : Act Unit) : Act Bool := do
  return (← attempt act).isSome

/-- The value of a variable as a text with expansions, or as it stands where it has a
fault.  A script that has just ended ends the first script in the text, too. -/
def expandedValue (run : Runner) (name : String) : Act String := do
  let p ← self
  let text := (p.value? name).getD ""
  let expanded ← attempt do
    let start : Reading :=
      { text := text.toList, aliases := p.aliases, token := .finish, again := p.endRead }
    match readText start with
    | .ok word rest =>
      update fun p => { p with endRead := rest.isOver }
      textOf (outputOf run) { quoted := true } word
    | .error failed rest =>
      update fun p => { p with endRead := rest.isOver }
      faultOfScript rest.line failed.reason
  return expanded.getD text

/-- Show a command on a stream, if commands are to be shown. -/
def showCommand (run : Runner) (stream : Option Nat) (fields : List String) : Act Unit := do
  let p ← self
  if p.has .xtrace && !p.tracing then
    update fun p => { p with tracing := true }
    let mark ← expandedValue run "PS4"
    update fun p => { p with tracing := false }
    let bytes := toBytes (mark ++ spaced fields ++ "\n").toList
    match stream with
    | some stream => discard (writeStream stream bytes)
    | none => return ()

/-! ## Simple commands -/

/-- Make an assignment in front of a command; its text. -/
def assign (run : Runner) (call : Call) (word : Word) : Act String := do
  let text ← textOf (outputOf run) { tilde := true, assignment := true } word
  if call.own then makeLocal text true
  else
    let (name, value) := splitAssignment text
    setVariable name value { exported := call.isExec && call.fields.length != 1 }
  return text

/-- Carry out a call. -/
def carryOutCall (run : Runner) (mode : Mode) (call : Call) : Act Unit := do
  match call.fields with
  | [] => setStatus (← self).substituted
  | name :: arguments =>
    let path := call.path.getD (searchPath (← self))
    let found ← match call.found with
      | some found => pure found
      | none => findCommand (!call.plain) path name
    match found with
    | .function body => callFunction run mode body arguments
    | .builtin _ =>
      let survived ← survives (runBuiltin run mode name arguments)
      if !survived && call.special then throw .fault
    | .program place => runProgram run mode path name place arguments
    | .path => runProgram run mode path name 0 arguments
    | .nothing fault =>
      let reason := faultReason "not found" fault
      warn s!"{name}: {reason}"
      setStatus 127

/-- Take an action; where it stops, another one follows. -/
def undoneBy {α : Type} (act : Act α) (undo : Act Unit) : Act α := fun w =>
  match act w with
  | .ok a w => .ok a w
  | .error stop w =>
    match undo w with
    | .ok () w => .error stop w
    | .error stop w => .error stop w

/-- Run a simple command.  Its redirections last as long as it runs, unless it is `exec`.
Where someone talks to the shell, the variable `_` is its last field afterwards. -/
def runSimple (run : Runner) (mode : Mode) (line : Nat) (assignments words : List Word)
    (redirects : List Redirect) : Act Unit := do
  atLine line
  update fun p => { p with substituted := 0 }
  let call ← callOf (outputOf run) words
  let start ← self
  withLocals call.own do
    let before ← self
    let targets ← targetsOf (outputOf run) redirects
    let restore := restoreStreams targets before
    if ← survives (redirectFrom (outputOf run) [] targets) then
      let act : Act Unit := do
        let assigned ← assignments.mapM (assign run call)
        showCommand run (before.stream? 2) (assigned ++ call.front ++ call.fields)
        carryOutCall run mode call
      if call.isExec then undoneBy act restore else followedBy act restore
    else
      restore
      setStatus 2
      if call.special then throw .fault
  match call.fields.getLast? with
  | some field =>
    if start.has .interactive && start.depth == 0 then setVariable "_" (some field)
  | none => return ()

end NativeBuild.Shell
