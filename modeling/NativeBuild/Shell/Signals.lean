import NativeBuild.Shell.Process

/-!
# Signals

The signals by name and number, what they do to a process, and how processes meet them.

Main definitions:

- `signalNames`: the names of all signals.
- `readSignal?`: the signal that a text names.
- `Effect`: what a signal does.
- `meetSignals`: a process meets the signals that were sent to it.
-/

namespace NativeBuild.Shell

/-! ## Names -/

/-- The names of the signals that have one, in order from zero. -/
def lowSignalNames : List String :=
  ["EXIT", "HUP", "INT", "QUIT", "ILL", "TRAP", "ABRT", "BUS", "FPE", "KILL", "USR1", "SEGV",
    "USR2", "PIPE", "ALRM", "TERM", "16", "CHLD", "CONT", "STOP", "TSTP", "TTIN", "TTOU", "URG",
    "XCPU", "XFSZ", "VTALRM", "PROF", "WINCH", "IO", "PWR", "SYS", "32", "33"]

/-- The names of all signals, in order from zero. -/
def signalNames : List String :=
  lowSignalNames ++ ["RTMIN"] ++ (List.range 15).map (fun n => s!"RTMIN+{n + 1}")
    ++ (List.range 14).reverse.map (fun n => s!"RTMAX-{n + 1}") ++ ["RTMAX"]

/-- The number of a signal that a text spells or names, from a least number on for names. -/
def readSignal? (least : Nat) (text : String) : Option Nat :=
  let named := (signalNames.findIdx? fun name => name.toUpper == text.toUpper).bind fun n =>
    if least ≤ n then some n else none
  match digits? text with
  | some n => if n < signalNames.length then some n else named
  | none => named

/-! ## Effects -/

/-- What a signal does to a process that says nothing about it. -/
inductive Effect where
  | nothing
  | ending
deriving DecidableEq, Repr

/-- What a signal does. -/
def effectOf (signal : Nat) : Effect :=
  if signal ∈ [0, 17, 18, 23, 28] then .nothing else .ending

/-- What is said of a child that a signal ended; nothing where that is usual. -/
def deathNotice? (signal : Nat) : Option String :=
  if signal = 2 ∨ signal = 13 then none
  else
    let known := [(1, "Hangup"), (3, "Quit"), (4, "Illegal instruction"),
      (5, "Trace/breakpoint trap"), (6, "Aborted"), (7, "Bus error"),
      (8, "Floating point exception"), (9, "Killed"), (10, "User defined signal 1"),
      (11, "Segmentation fault"), (12, "User defined signal 2"), (14, "Alarm clock"),
      (15, "Terminated"), (16, "Stack fault"), (19, "Stopped (signal)"), (20, "Stopped"),
      (21, "Stopped (tty input)"), (22, "Stopped (tty output)"),
      (24, "CPU time limit exceeded"), (25, "File size limit exceeded"),
      (26, "Virtual timer expired"), (27, "Profiling timer expired"), (29, "I/O possible"),
      (30, "Power failure"), (31, "Bad system call")]
    some ((known.lookup signal).getD
      (if 34 ≤ signal then s!"Real-time signal {signal - 34}" else s!"Unknown signal {signal}"))

/-! ## Meeting signals -/

/-- A process meets one signal: a trap is noted, and without one the signal has its own
effect, which is milder where someone talks to the shell. -/
def meetSignal (signal : Nat) : Act Unit := do
  let p ← self
  let deadly := signal = 9 ∨ signal = 19
  if p.ignored.contains signal ∧ !deadly then return ()
  else
    match if deadly then none else p.traps.lookup signal with
    | some text =>
      if text ≠ "" ∧ signal ∉ p.caught then
        update fun p => { p with caught := signal :: p.caught }
    | none =>
      if p.isInteractive ∧ signal = 2 then
        setStatus 130
        throw .interrupted
      else if !(p.isInteractive ∧ signal ∈ [3, 15]) ∧ effectOf signal = .ending then
        throw (.killed signal)

/-- The process meets the signals that were sent to it. -/
def meetSignals : Act Unit := do
  let w ← get
  let number := w.process.number
  let signals := w.machine.signalsFor number
  if !signals.isEmpty then
    set { w with machine := w.machine.withoutSignalsFor number }
    signals.forM meetSignal

end NativeBuild.Shell
