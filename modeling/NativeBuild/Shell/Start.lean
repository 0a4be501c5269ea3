import NativeBuild.Host.Program
import NativeBuild.Shell.Dialogue

/-!
# The shell as a program

How a shell starts: what it takes from its surroundings, what its arguments ask for, and
where its script is.

Main definitions:

- `startShell`: the process becomes a new shell.
- `perform`: the runner of all work.
- `program` and `shell`: what a process does as a program, and the shell as one.
-/

namespace NativeBuild.Shell

/-! ## A new shell -/

/-- The process as a new shell, before it knows any variables of its surroundings. -/
def Process.renewed (p : Process) (name : String) : Process :=
  { number := p.number
    root := p.number
    parent := p.parent
    descriptors := p.descriptors
    directory := p.directory
    directoryPath := pathOfPosition p.directory
    mask := p.mask
    limits := p.limits
    bindings := initialVariables p.parent
    unsettled := Setting.all
    name
    ignored := p.ignored ++ (p.traps.filter fun entry => entry.2 == "").map (·.1) }

/-- Take over a variable of the surroundings.  Some are known too well. -/
def inherit (entry : String × String) : Act Unit := do
  let (name, value) := entry
  if isName name then
    if name ∈ ["IFS", "OPTIND", "PPID"] then
      update fun p =>
        match p.variableAt? name with
        | some v => p.put name { v with exported := true }
        | none => p
    else setVariable name (some value) { exported := true }

/-- Know the path of the directory: the one that is known, if it leads there. -/
def findDirectory : Act Unit := do
  let p ← self
  let known := (p.value? "PWD").getD ""
  let leadsHere := known.startsWith "/"
    && directoryAt? (← filesHere) known == some p.directory
  let directoryPath := if leadsHere then known else p.directoryPath
  update fun p => { p with directoryPath }
  setVariable "PWD" (some directoryPath) { exported := true }

/-! ## Arguments -/

/-- Set the options that the fields in front ask for, at most so many: whether one of them
says that a script stands in the arguments, and the fields after the options. -/
def startOptions : Nat → Bool → List String → Act (Bool × List String)
  | 0, scripted, fields => return (scripted, fields)
  | _, scripted, [] => return (scripted, [])
  | n + 1, scripted, field :: rest => do
    match field.toList with
    | ['-'] => return (scripted, rest)
    | ['-', '-'] => return (scripted, rest)
    | sign :: letters =>
      if sign = '-' ∨ sign = '+' then
        let others := letters.filter fun c => c != 'c' && c != 'l'
        let rest ← switchLetters (sign == '-') others rest
        startOptions n (scripted || letters.contains 'c') rest
      else return (scripted, field :: rest)
    | [] => return (scripted, field :: rest)

/-- Settle the options of which the arguments said nothing: jobs are under control where
someone talks to the shell. -/
def settleOptions : Act Unit :=
  update fun p =>
    let silent := p.unsettled.contains .monitor
    let p := if silent then p.withSetting .monitor (p.has .interactive) else p
    { p with unsettled := [] }

/-- The name of the script, and its arguments. -/
def takeArguments : List String → Act Unit
  | [] => return ()
  | name :: arguments => update fun p => { p.withArguments arguments with name }

/-- Run the script on the input. -/
def runInput (run : Runner) : Act Unit := do
  let w ← get
  match w.process.stream? 0 with
  | none => runOwnFile run []
  | some stream =>
    let content := (w.machine.pending stream).getD []
    updateMachine fun m => m.advance stream content.length
    runOwnFile run content

/-- Run what the arguments of a shell ask for. -/
def runArguments (run : Runner) (arguments : List String) : Act Unit := do
  let (scripted, fields) ← startOptions arguments.length false arguments
  if fields = [] then
    if scripted then fault "-c requires an argument"
    switchSetting .stdin true
  settleOptions
  let fromInput := (← self).has .stdin
  match scripted, fields with
  | true, text :: rest =>
    takeArguments rest
    refuseMonitor
    let outcome ← recovering (runText run { last := !fromInput } text)
    if fromInput || outcome.isNone then runInput run
  | false, path :: _ =>
    if fromInput then
      update fun p => p.withArguments fields
      refuseMonitor
      runInput run
    else
      let content ← readSource path
      takeArguments fields
      refuseMonitor
      runOwnFile run content
  | _, [] =>
    refuseMonitor
    runInput run

/-- The process becomes a new shell, and ends with it. -/
def startShell (run : Runner) (name : String) (arguments : List String) : Act Unit := do
  let environment := environmentOf (← self)
  update fun p => p.renewed name
  let stop ← stopOf do
    update fun p => { p with complaintLine := 0 }
    environment.forM inherit
    findDirectory
    runArguments run arguments
  match ← endShell run stop with
  | .killed signal => throw (.killed signal)
  | .exited status =>
    update fun p => { p with status, traps := [] }
    throw .done

/-! ## All work -/

/-- Carry out work, at most so much inside each other. -/
def perform : Nat → Runner
  | 0, _ => throw .done
  | n + 1, .script mode script => runScript (perform n) mode script
  | n + 1, .lastScript mode targets script => runLast (perform n) mode targets script
  | n + 1, .newShell name arguments => startShell (perform n) name arguments

/-! ## The program -/

/-- The machine on which a program starts, among some files. -/
def Machine.start (fs : FileSystem) : Machine :=
  { files := fs.withSystem
    streams := #[{ medium := .null, readable := true }, { medium := .output, writable := true },
      { medium := .errors, writable := true }]
    alive := [4096, 4095] }

/-- The process in which a program starts, with the variables of its surroundings. -/
def Process.start (environment : List (String × String)) (fs : FileSystem) : Process :=
  { number := 4096
    root := 4096
    parent := 4095
    descriptors := [(0, 0), (1, 1), (2, 2)]
    directory := fs.cwd
    bindings := environment.map fun (name, value) =>
      (name, { value := some value, exported := true }) }

/-- What a program leaves behind that ended in some way. -/
def Machine.finished (m : Machine) (ending : Ending) : Finished where
  status := match ending with
    | .exited status => some status
    | .killed _ => none
  stdout := m.output.reverse.flatten
  stderr := m.errors.reverse.flatten

/-- What a process does as a program, with the variables of its surroundings. -/
def program (environment : List (String × String)) (body : Runner → List String → Act Unit) :
    Program :=
  fun arguments fs =>
    let process := Process.start environment fs
    let run := perform maxSteps
    let act := runProcess run process (body run (arguments.map ofText))
    let (ending, w) : Ending × World :=
      match act { machine := .start fs, process } with
      | .ok ending w => (ending, w)
      | .error _ w => (.exited 2, w)
    (w.machine.finished ending, w.machine.files.withoutSystem fs.root.length)

/-- The shell as a program, under a name and with the variables of its surroundings. -/
def shell (environment : List (String × String)) (name : String) : Program :=
  program environment fun run arguments => run (.newShell (ofText name) arguments)

end NativeBuild.Shell
