import NativeBuild.Shell.Commands

/-!
# Running commands

Commands of every form.  What stands inside another command is handed to a runner, which
is tied to this one at the end.

Main definitions:

- `endTurn`: what becomes of the loop around a command that skips others.
- `carryOut`: a command of any form.
- `runScript`: a command, with the traps around it and the end of the shell after it.
- `runLast`: a command after which the process ends.
-/

namespace NativeBuild.Shell

/-! ## Loops -/

/-- What a loop does after a command in it. -/
inductive Turn where
  | goOn
  /-- The rest of the turn is skipped. -/
  | again
  | leave
  /-- The function around the loop is left; a status was given. -/
  | back (given : Bool)
deriving DecidableEq, Repr

/-- What the loop around a command does after it. -/
def endTurn : Act Turn := do
  match (← self).skip with
  | none => return .goOn
  | some (.back given) => return .back given
  | some (.leave 0) => skipNow none .leave
  | some (.leave (more + 1)) => skipNow (some (.leave more)) .leave
  | some (.again 0) => skipNow none .again
  | some (.again (more + 1)) => skipNow (some (.again more)) .leave
where
  /-- Note what is skipped from now on. -/
  skipNow (skip : Option Skip) (turn : Turn) : Act Turn := do
    update fun p => { p with skip }
    return turn

/-- Run a loop, at most so many times; the status is that of the body, or the given one. -/
def runLoop (run : Runner) (mode : Mode) (wanted : Bool) (test body : Script) :
    Nat → Nat → Act Nat
  | 0, status => return status
  | n + 1, status => do
    run (.script { tested := true } test)
    let outcome := (← self).status
    match ← endTurn with
    | .back given => return if given then outcome else status
    | .leave => return status
    | .again => runLoop run mode wanted test body n status
    | .goOn =>
      if (outcome == 0) != wanted then return status
      else
        run (.script { tested := mode.tested } body)
        let status := (← self).status
        match ← endTurn with
        | .goOn => runLoop run mode wanted test body n status
        | .again => runLoop run mode wanted test body n status
        | _ => return status

/-- Run a body once for every value of a variable. -/
def runEach (run : Runner) (mode : Mode) (name : String) (body : Script) :
    List String → Nat → Act Nat
  | [], status => return status
  | value :: rest, _ => do
    setVariable name (some value)
    run (.script { tested := mode.tested } body)
    let status := (← self).status
    match ← endTurn with
    | .goOn => runEach run mode name body rest status
    | .again => runEach run mode name body rest status
    | _ => return status

/-- Take an action as the body of a loop. -/
def inLoop (act : Act Nat) : Act Unit := do
  update fun p => { p with loops := p.loops + 1 }
  let status ← act
  update fun p => { p with loops := p.loops - 1, status }

/-! ## Choices -/

/-- The body of the first arm with a pattern that fits a text. -/
def findArm (run : Runner) (subject : List Char) :
    List (List Word × Script) → Act (Option Script)
  | [] => return none
  | (patterns, body) :: rest => do
    if ← fitsOne patterns then return some body else findArm run subject rest
where
  /-- One of the patterns fits the text. -/
  fitsOne : List Word → Act Bool
    | [] => return false
    | pattern :: rest => do
      if fits (← patternTextOf (outputOf run) pattern) subject then return true
      else fitsOne rest

/-! ## Commands of every form -/

/-- Carry out a command; whether its failure may end the shell. -/
def carryOut (run : Runner) (mode : Mode) : Script → Act Bool
  | .skip => return false
  | .simple line assignments words redirects => do
    runSimple run mode line assignments words redirects
    return true
  | .pipeline background members => do
    if background then startInBackground [] (.pipeline false members)
    else runPipeline run mode members
    return true
  | .background line body redirects => do
    atLine line
    startInBackground (← targetsOf (outputOf run) redirects) body
    return true
  | .subshell line body redirects => do
    atLine line
    let targets ← targetsOf (outputOf run) redirects
    let work : Work := .lastScript mode targets body
    if mode.last && !(← self).hasTraps then
      update fun p => { p with readLine := p.fileLine }
      run work
    else inChild run (run work)
    return true
  | .redirected line body redirects => do
    atLine line
    let before ← self
    let targets ← targetsOf (outputOf run) redirects
    let restore := restoreStreams targets before
    if ← survives (redirectFrom (outputOf run) [] targets) then
      followedBy (run (.script { tested := mode.tested } body)) restore
      return false
    else
      restore
      setStatus 2
      return true
  | .negated body => do
    run (.script { tested := true } body)
    update fun p =>
      if p.skip.isSome then p else { p with status := if p.status = 0 then 1 else 0 }
    return false
  | .both first second => do
    run (.script { tested := true } first)
    let p ← self
    if p.status = 0 && p.skip.isNone then run (.script mode second)
    return false
  | .either first second => do
    run (.script { tested := true } first)
    let p ← self
    if p.status ≠ 0 && p.skip.isNone then run (.script mode second)
    return false
  | .sequence first second => do
    run (.script { tested := mode.tested } first)
    if (← self).skip.isNone then run (.script mode second)
    return false
  | .conditional test yes no => do
    run (.script { tested := true } test)
    let p ← self
    if p.skip.isNone then
      if p.status = 0 then run (.script mode yes)
      else
        match no with
        | some no => run (.script mode no)
        | none => setStatus 0
    return false
  | .loop wanted test body => do
    inLoop (runLoop run mode wanted test body maxSteps 0)
    return false
  | .each line name words body => do
    atLine line
    let values ← words.mapM (fieldsOf (outputOf run))
    inLoop (runEach run mode name body values.flatten 0)
    return false
  | .choice line subject arms => do
    atLine line
    let text ← textOf (outputOf run) { tilde := true } subject
    match ← findArm run text.toList arms with
    | some .skip => setStatus 0
    | some body => run (.script mode body)
    | none => setStatus 0
    return false
  | .definition name body => do
    update fun p => { p with
      functions := (name, body) :: p.functions.filter (·.1 != name)
      status := 0 }
    return false

/-- Run a command, with the traps of signals that come before and after it.  The shell ends
where nothing is to follow, or where a failure must not be. -/
def runScript (run : Runner) (mode : Mode) (script : Script) : Act Unit := do
  let checked ←
    if script.isSkip || (← self).has .noexec then pure false
    else
      runTraps run
      carryOut run mode script
  let status := (← self).status
  runTraps run
  if checked && !mode.tested && status ≠ 0 && (← self).has .errexit then throw .done
  if mode.last then throw .done

/-- Run a script after which the process ends; until then some streams are redirected.  A
fault in it ends the process as well. -/
def runLast (run : Runner) (mode : Mode) (targets : List Target) (script : Script) :
    Act Unit := do
  let ended ← attempt do
    redirectAll (outputOf run) targets
    run (.script { mode with last := true } script)
  if ended.isNone then throw .done

end NativeBuild.Shell
