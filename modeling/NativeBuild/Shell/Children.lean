import NativeBuild.Shell.Builtin.Jobs
import NativeBuild.Shell.Lines

/-!
# Child processes

A process may start others, which have all that it has and change nothing of it.  One that
is waited for runs at once; one in the background runs when its parent waits next, and what
a process leaves behind in the background runs at its end.

Main definitions:

- `Process.child`: the process that a process starts.
- `runProcess`: a process up to its end.
- `inChild` and `outputOf`: an action and a script in a process that is waited for.
- `runMembers`: processes of which each reads what the one before it writes.
- `startInBackground`, `runTasks` and `waitCommand`: processes in the background.
-/

namespace NativeBuild.Shell

/-! ## Processes -/

namespace Process

/-- The process that a process starts.  Of the traps it has those that do nothing. -/
def child (p : Process) (number : Nat) : Process :=
  { p with
    number
    parent := p.number
    jobs := []
    traps := p.traps.filter fun entry => entry.2 == ""
    readLine := p.fileLine
    caught := []
    held := [] }

/-- A trap of the process does something. -/
def hasTraps (p : Process) : Bool :=
  p.traps.any fun entry => entry.2 != ""

end Process

/-- The machine after a process has gone. -/
def Machine.without (m : Machine) (number : Nat) : Machine :=
  { m.withoutSignalsFor number with alive := m.alive.filter (· != number) }

/-- A new process, which the process that acts has started. -/
def freshProcess (change : Process → Process) : Act Process := do
  let number := (← get).machine.processes + 1
  updateMachine fun m => { m with processes := number, alive := number :: m.alive }
  return change ((← self).child number)

/-- Run a process up to its end: how it ended, and what it left behind. -/
def runAlone (run : Runner) (process : Process) (body : Act Unit) :
    Act (Ending × List Task) := do
  let parent ← self
  let tasks := (← get).tasks
  modify fun w => { w with process, tasks := [] }
  let ending ← endShell run (← stopOf body)
  let left := (← get).tasks
  modify fun w => { machine := w.machine.without process.number, process := parent, tasks }
  if (parent.traps.lookup 17).isSome then updateMachine fun m => m.send parent.number 17
  return (ending, left)

/-- Run what was started in the background. -/
def runTask (run : Runner) (task : Task) : Act (Ending × List Task) :=
  runAlone run task.process (run (.lastScript {} task.targets task.body))

/-- Run what processes left behind, and what that leaves behind, at most so many. -/
def runLeft (run : Runner) : Nat → List Task → Act Unit
  | 0, _ => return ()
  | _, [] => return ()
  | n + 1, task :: rest => do
    let (_, more) ← runTask run task
    runLeft run n (more ++ rest)

/-- Run a process up to its end, and what it leaves behind; how it ended. -/
def runProcess (run : Runner) (process : Process) (body : Act Unit) : Act Ending := do
  let (ending, left) ← runAlone run process body
  runLeft run maxSteps left
  return ending

/-! ## Jobs -/

/-- The number of the next job.  An old job that was waited for makes room. -/
def makeRoom : Act Nat := do
  let jobs := (← self).jobs
  let taken (n : Nat) : Bool :=
    jobs.any fun job => job.number == n && !(job.waited && job.ending.isSome)
  let number := ((List.range (jobs.length + 1)).find? fun n => !taken (n + 1)).getD 0 + 1
  update fun p => { p with jobs := p.jobs.filter fun job => job.number != number }
  return number

/-- Note how a job ended. -/
def Job.endedBy (number : Nat) (ending : Ending) (job : Job) : Job :=
  if job.process = number then { job with ending := some ending } else job

/-- Run what the process has started in the background, at most so many. -/
def runTasksWithin (run : Runner) : Nat → Act Unit
  | 0 => return ()
  | n + 1 => do
    match (← get).tasks with
    | [] => return ()
    | task :: rest =>
      modify fun w => { w with tasks := rest }
      let (ending, left) ← runTask run task
      runLeft run maxSteps left
      update fun p => { p with jobs := p.jobs.map (Job.endedBy task.process.number ending) }
      runTasksWithin run n

/-- Run what the process has started in the background. -/
def runTasks (run : Runner) : Act Unit :=
  runTasksWithin run maxSteps

/-- Start a command that is not waited for. -/
def startInBackground (targets : List Target) (body : Script) : Act Unit := do
  let number ← makeRoom
  let null ← addStream { medium := .null, readable := true }
  let process ← freshProcess fun p =>
    { p.withStream 0 (some null) with ignored := 2 :: 3 :: p.ignored }
  modify fun w => { w with tasks := w.tasks ++ [{ process, targets, body }] }
  update fun p => { p with
    jobs := p.jobs ++ [{ number, process := process.number }]
    background := some process.number
    status := 0 }

/-! ## Waiting -/

/-- Say how a child ended, where that is unusual. -/
def notice : Ending → Act Unit
  | .killed signal =>
    match deathNotice? signal with
    | some text => sayError (text ++ "\n")
    | none => return ()
  | .exited _ => return ()

/-- A process is about to start another one that it waits for. -/
def prepareChild (run : Runner) : Act Unit := do
  let _ ← makeRoom
  runTasks run

/-- Run a child up to its end; how it ended. -/
def runChild (run : Runner) (change : Process → Process) (body : Act Unit) : Act Ending := do
  let ending ← runProcess run (← freshProcess change) body
  notice ending
  return ending

/-- Take an action in a child, whose status is that of the action. -/
def inChild (run : Runner) (body : Act Unit) : Act Unit := do
  prepareChild run
  let ending ← runChild run id body
  setStatus ending.status
  meetSignals

/-- What a script writes, which runs in a child. -/
def outputOf (run : Runner) : Interpreter := fun script => do
  if script.isSkip then return []
  else
    prepareChild run
    let (reader, writer) ← addPipe []
    let ending ← runChild run (fun p => p.withStream 1 (some writer))
      (run (.script { last := true } script))
    let bytes := ((← get).machine.pending reader).getD []
    updateMachine fun m => m.advance reader bytes.length
    update fun p => { p with substituted := ending.status }
    meetSignals
    return ofBytes (bytes.filter (· != 0))

/-- Run the members of a pipeline, each of which reads what the one before it writes; the
status of the last one. -/
def runMembers (run : Runner) (mode : Mode) : Option Nat → List Script → Act Nat
  | _, [] => return 0
  | input, member :: rest => do
    let fed (p : Process) : Process :=
      if input.isSome then p.withStream 0 input else p
    let body := run (.script { mode with last := true } member)
    if rest = [] then
      return (← runChild run fed body).status
    else
      let (reader, writer) ← addPipe []
      let _ ← runChild run (fun p => (fed p).withStream 1 (some writer)) body
      runMembers run mode (some reader) rest

/-- Run a pipeline. -/
def runPipeline (run : Runner) (mode : Mode) (members : List Script) : Act Unit := do
  prepareChild run
  setStatus (← runMembers run mode none members)
  meetSignals

/-! ## The command `wait` -/

/-- The status of the wait for what a field names. -/
def waitFor (run : Runner) (field : String) : Act Nat := do
  let p ← self
  let job? : Option Job ←
    if field.startsWith "%" then do
      pure (some (← requireJob field))
    else do
      let number ← requireNumber field
      pure (p.jobs.find? fun job => job.process == number)
  match job? with
  | none => return 127
  | some job =>
    runTasks run
    let found := (← self).jobs.find? fun other => other.number == job.number
    let ending := (found.bind fun job => job.ending).getD (.exited 0)
    if job.ending.isNone then notice ending
    update fun p => { p with
      jobs := p.jobs.map fun other =>
        if other.number = job.number then { other with waited := true } else other }
    return ending.status

/-- The status of a wait that a signal interrupted, or the given one.  The end of a child
does not interrupt it. -/
def interrupted (status : Nat) : Act Nat := do
  meetSignals
  let others := (← self).caught.filter (· != 17)
  return (others.head?.map (128 + ·)).getD status

/-- The command `wait`. -/
def waitCommand (run : Runner) (fields : List String) : Act Nat := do
  match ← withoutFlags fields with
  | [] =>
    runTasks run
    update fun p => { p with jobs := p.jobs.map fun job => { job with waited := true } }
    interrupted 0
  | fields =>
    let status ← fields.foldlM (fun _ field => waitFor run field) 127
    interrupted status

end NativeBuild.Shell
