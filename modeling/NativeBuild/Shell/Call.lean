import NativeBuild.Shell.Redirection

/-!
# Calls of commands

The words of a simple command are expanded in two steps: as far as it takes to know what is
called, and then the rest in the way in which that command takes its fields.  The command
`command` in front of another one makes that one an ordinary command of the shell.

Main definitions:

- `Call`: a call of a command.
- `callOf`: the call that the words of a command make.
-/

namespace NativeBuild.Shell

/-- A call of a command. -/
structure Call where
  /-- The fields in front of the name. -/
  front : List String := []
  /-- The name, and the fields after it as far as they are expanded. -/
  fields : List String := []
  /-- The words that are not expanded yet. -/
  words : List Word
  /-- The function or command of the shell that is called; none for programs. -/
  found : Option Found := none
  /-- The name stands behind `command`, and functions do not count. -/
  plain : Bool := false
  /-- The search path that was asked for. -/
  path : Option String := none
  /-- An error in the command ends the shell. -/
  special : Bool := false
  /-- The assignments in front of the command last as long as it runs. -/
  own : Bool := false

namespace Call

/-- The call with a further field, if the words have one. -/
def withField (run : Interpreter) (call : Call) : Act Call := do
  let rec expand : List Word → Act (List String × List Word)
    | [] => return ([], [])
    | word :: rest => do
      match ← fieldsOf run word with
      | [] => expand rest
      | fields => return (fields, rest)
  if call.fields = [] then
    let (fields, words) ← expand call.words
    return { call with fields, words }
  else return call

/-- The call with its first field in front of the name. -/
def passed (call : Call) : Call :=
  { call with front := call.front ++ call.fields.take 1, fields := call.fields.tail }

/-- The call behind `command` and at most so many of its flags; whether there is one. -/
def behindFlags (run : Interpreter) : Nat → Call → Act (Bool × Call)
  | 0, call => return (false, call)
  | n + 1, call => do
    let call ← call.withField run
    match (call.fields.head?.getD "").toList with
    | ['-', '-'] =>
      let call ← call.passed.withField run
      return (call.fields != [], call)
    | '-' :: c :: cs =>
      if (c :: cs).all (· == 'p') then
        behindFlags run n { call.passed with path := some defaultSearchPath }
      else return (false, call)
    | _ => return (call.fields != [], call)

/-- The call with what it calls, behind at most so many times `command`. -/
def resolve (run : Interpreter) : Nat → Call → Act Call
  | 0, call => return call
  | n + 1, call => do
    let call ← call.withField run
    match call.fields with
    | [] => return call
    | name :: _ =>
      match (← self).known? (!call.plain) name with
      | some (.builtin special) =>
        let call : Call :=
          if call.plain then { call with found := some (.builtin special), own := true }
          else { call with found := some (.builtin special), special, own := !special }
        if name ≠ "command" then return call
        else
          let (named, after) ← behindFlags run maxSteps call.passed
          if named then resolve run n { after with plain := true }
          else
            return { after with
              front := call.front
              fields := after.front.drop call.front.length ++ after.fields }
      | found => return { call with found, own := true }

/-- The command marks variables: its fields may be assignments. -/
def marksVariables (call : Call) : Bool :=
  match call.found, call.fields with
  | some (.builtin _), name :: _ => name ∈ ["export", "readonly", "local"]
  | _, _ => false

/-- The call is one of `exec`. -/
def isExec (call : Call) : Bool :=
  match call.found, call.fields with
  | some (.builtin _), name :: _ => name == "exec"
  | _, _ => false

/-- The call with all its fields. -/
def complete (run : Interpreter) (call : Call) : Act Call := do
  let more ← call.words.mapM fun word => do
    if call.marksVariables && word.isAssignment then
      return [← textOf run { tilde := true, assignment := true } word]
    else fieldsOf run word
  return { call with fields := call.fields ++ more.flatten, words := [] }

end Call

/-- The call that the words of a command make. -/
def callOf (run : Interpreter) (words : List Word) : Act Call := do
  (← Call.resolve run maxSteps { words }).complete run

end NativeBuild.Shell
