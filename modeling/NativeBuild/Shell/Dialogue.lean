import NativeBuild.Shell.Run

/-!
# Dialogues

A shell runs the lines that it was started with.  When someone talks to it, it asks for
every line, and goes on after a fault.

Main definitions:

- `recovering`: an action after whose fault a dialogue goes on.
- `runDialogue`: the lines of a shell.
- `runOwnFile`: the lines of a file that a shell was started with.
-/

namespace NativeBuild.Shell

/-! ## Faults -/

/-- Nothing remains of the commands that a fault ended. -/
def forgetCommands : Act Unit := do
  let former := (← self).locals.flatten
  update fun p => { p with
    locals := [], skip := none, loops := 0, held := [], command := none, tracing := false
    endRead := false }
  former.forM restoreFormer

/-- Take an action; none where a fault or an interruption ended it and the dialogue goes
on. -/
def recovering {α : Type} (act : Act α) : Act (Option α) := fun w =>
  let goOn (front : String) (w : World) : EStateM.Result Stop World (Option α) :=
    (do sayError front; forgetCommands; return none : Act (Option α)) w
  match act w with
  | .ok a w => .ok (some a) w
  | .error .fault w => if w.process.isInteractive then goOn "" w else .error .fault w
  | .error .interrupted w => goOn "\n" w
  | .error stop w => .error stop w

/-! ## Lines -/

/-- How often the end of the lines is not taken for the end of the dialogue. -/
def mostEnds : Nat := 50

/-- Ask for a line with the text of a variable, if someone talks to the shell.  Before the
line is read, what was said is handed on. -/
def askWith (run : Runner) (name : String) : Act Unit := do
  update fun p => { p with endRead := false }
  if (← self).has .interactive then sayError (← expandedValue run name)
  discard handOn

/-- Say what the end of the lines means; whether the dialogue goes on, after so many ends. -/
def goesOnAfter (ends : Nat) : Act Bool := do
  let p ← self
  if mostEnds ≤ ends then return false
  else if p.has .ignoreeof then
    sayError "\nUse \"exit\" to leave shell.\n"
    return true
  else
    if p.has .interactive then sayError "\n"
    return false

/-- Run the lines of a shell, at most so many, after so many ends in a row.  After a fault
nothing is left of the lines. -/
def runDialogue (run : Runner) : Nat → Nat → Source → Act Unit
  | 0, _, _ => return ()
  | n + 1, ends, source => do
    let nothing : Source := { source with text := [], inserted := [] }
    askWith run "PS1"
    match ← recovering (takeLine source (askWith run "PS2")) with
    | none => runDialogue run n 0 nothing
    | some .finish => if ← goesOnAfter ends then runDialogue run n (ends + 1) nothing
    | some (.run script _ rest) =>
      match ← recovering (run (.script {} script)) with
      | none => runDialogue run n 0 nothing
      | some () => if (← self).skip.isNone then runDialogue run n 0 rest

/-- Run the lines of a file that a shell was started with. -/
def runOwnFile (run : Runner) (content : List UInt8) : Act Unit := do
  keepingLine (runDialogue run maxSteps 0 { origin := .shell, text := textOfFile content })
  endReturn

end NativeBuild.Shell
