import NativeBuild.Shell.Builtin.Flags

/-!
# Commands about processes

The commands `kill`, `trap`, `jobs`, `bg` and `fg`.

Main definitions:

- `killCommand`: signals to processes.
- `trapCommand`: what is done when signals come.
- `listJobs`: the jobs in the background.
-/

namespace NativeBuild.Shell

/-! ## Sending signals -/

/-- How `kill` is called. -/
def killUsage : String :=
  "Usage: kill [-s sigspec | -signum | -sigspec] [pid | job]... or\nkill -l [exitstatus]"

/-- The signal of a text, which has to be one. -/
def requireSignal (text : String) : Act Nat :=
  match readSignal? 1 text with
  | some signal => return signal
  | none => fault s!"invalid signal number or name: {text}"

/-- What a call of `kill` asks for. -/
inductive KillCall where
  | list
  | send (signal : Nat)
deriving DecidableEq, Repr

/-- What the flags of a call of `kill` ask for, and the fields after them. -/
def readKill (fields : List String) : Act (KillCall × List String) := do
  let plain : Act (KillCall × List String) := do
    let (flags, rest) ← readFlags { letters := ['l'], withArgument := ['s'] } fields
    let signal ← flags.foldlM (fun signal flag => do
      match flag.argument with
      | some text => return some (← requireSignal text)
      | none => return signal) (none : Option Nat)
    if flags.any fun flag => flag.letter == 'l' then return (.list, rest)
    else return (.send (signal.getD 15), rest)
  match fields with
  | [] => fault killUsage
  | first :: rest =>
    match first.toList with
    | '-' :: cs =>
      match readSignal? 1 (String.ofList cs) with
      | some signal => return (.send signal, rest)
      | none => plain
    | _ => return (.send 15, fields)

/-- The job that a field names by its number behind a percent sign. -/
def requireJob (text : String) : Act Job := do
  let cs := text.toList.tail
  let jobs := (← self).jobs
  let job? := if cs = [] ∨ cs = ['%'] ∨ cs = ['+'] then jobs.getLast? else
    (digits? (String.ofList cs)).bind fun n => jobs.find? fun job => job.number == n
  match job? with
  | some job => return job
  | none => fault s!"No such job: {text}"

/-- The process that a field names; a job is no single process. -/
def targetOf (field : String) : Act (Option Nat) := do
  match field.toList with
  | '%' :: _ =>
    let _ ← requireJob field
    return none
  | '-' :: cs =>
    let _ ← requireNumber (String.ofList cs)
    return none
  | _ => return some (← requireNumber field)

/-- Send a signal to the process that a field names; whether there is one. -/
def sendTo (signal : Nat) (field : String) : Act Bool := do
  let target ← targetOf field
  let alive := 1 :: (← get).machine.alive
  match target.filter (alive.contains ·) with
  | some target =>
    if signal ≠ 0 then
      updateMachine fun m => m.send target signal
      meetSignals
    return true
  | none =>
    warn "No such process\n"
    return false

/-- Show the names of signals. -/
def listSignals (fields : List String) : Act Nat := do
  match fields with
  | [] =>
    say "0\n"
    signalNames.tail.forM fun name => say (name ++ "\n")
    return 0
  | text :: _ =>
    let n ← requireNumber text
    let signal := if 128 < n then n - 128 else n
    match signalNames[signal]? with
    | some name =>
      if signal = 0 then fault s!"invalid signal number or exit status: {text}"
      else
        say (name ++ "\n")
        return 0
    | none => fault s!"invalid signal number or exit status: {text}"

/-- The command `kill`. -/
def killCommand (fields : List String) : Act Nat := do
  match ← readKill fields with
  | (.list, rest) => listSignals rest
  | (.send _, []) => fault killUsage
  | (.send signal, targets) =>
    let outcomes ← targets.mapM (sendTo signal)
    return if outcomes.all id then 0 else 1

/-! ## Traps -/

/-- Set what is done when a signal comes, or nothing special. -/
def setTrap (signal : Nat) (action : Option String) : Act Unit :=
  update fun p =>
    let others := p.traps.filter fun entry => entry.1 != signal
    { p with
      traps := match action with
        | some text => (signal, text) :: others
        | none => others }

/-- Set traps for the signals that the fields name; the first that is none ends that. -/
def setTraps (action : Option String) : List String → Act Nat
  | [] => return 0
  | field :: rest => do
    match readSignal? 0 field with
    | some signal =>
      setTrap signal (if action = some "-" then none else action)
      setTraps action rest
    | none =>
      sayError s!"trap: {field}: bad trap\n"
      return 1

/-- The command `trap`. -/
def trapCommand (fields : List String) : Act Nat := do
  match ← withoutFlags fields with
  | [] =>
    let traps := (← self).traps.mergeSort fun a b => a.1 ≤ b.1
    traps.forM fun (signal, text) => do
      let name := signalNames[signal]?.getD ""
      say s!"trap -- {singleQuoted text} {name}\n"
    return 0
  | first :: rest =>
    if rest = [] ∨ (digits? first).isSome then setTraps none (first :: rest)
    else setTraps (some first) rest

/-! ## Jobs -/

/-- The commands `bg` and `fg`: no job can be moved to another place. -/
def refuseJob (fields : List String) : Act Nat := do
  match ← withoutFlags fields with
  | [] =>
    if (← self).jobs = [] then fault "No current job"
    else fault "job (null) not created under job control"
  | field :: _ =>
    let _ ← requireJob field
    fault s!"job {field} not created under job control"

/-- What is said of the state of a job. -/
def Job.state (job : Job) : String :=
  match job.ending with
  | none => "Running"
  | some (.exited 0) => "Done"
  | some (.exited n) => s!"Done({n})"
  | some (.killed signal) => (deathNotice? signal).getD ""

/-- Show a job, in full or by its process only.  One that has ended is forgotten then. -/
def showJob (short : Bool) (job : Job) : Act Unit := do
  let jobs := (← self).jobs
  let isLast (jobs : List Job) : Bool :=
    (jobs.getLast?.map fun other => other.number) == some job.number
  let place := if isLast jobs then "+" else if isLast jobs.dropLast then "-" else " "
  let line := s!"[{job.number}] {place} {job.state}"
  say (if short then s!"{job.process}\n" else padded 33 line ++ "\n")
  if job.ending.isSome then
    update fun p => { p with jobs := p.jobs.filter fun other => other.number != job.number }

/-- The command `jobs`. -/
def listJobs (fields : List String) : Act Nat := do
  let (flags, fields) ← readFlags { letters := ['l', 'p'] } fields
  let short := flags.getLast?.map (·.letter) == some 'p'
  if fields = [] then (← self).jobs.reverse.forM (showJob short)
  else fields.forM fun field => do showJob short (← requireJob field)
  return 0

end NativeBuild.Shell
