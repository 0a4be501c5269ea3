import NativeBuild.Host.Echo
import NativeBuild.Shell.Children

/-!
# Programs of the shell

What the programs do that a shell starts: shells of their own, and programs that end
well, end badly, show their arguments, or write one file after another.

Main definitions:

- `showArguments` and `concatenate`: the programs `echo` and `cat`.
- `becomeProgram`: the process becomes a program.
- `runProgram`: a program in a process of its own.
-/

namespace NativeBuild.Shell

/-! ## Showing arguments -/

/-- Why nothing can be written to the output. -/
def outputFault : Act String := do
  let w ← get
  return match (w.process.stream? 1).bind w.machine.get? with
    | some { medium := .full, .. } => "No space left on device"
    | some { medium := .file _, writable := true, .. } => "File too large"
    | _ => "Bad file descriptor"

/-- A program complains and ends. -/
def failProgram {α : Type} (text : String) : Act α := do
  sayError text
  setStatus 1
  throw .done

/-- A program writes to its output, or complains and ends. -/
def writeOutput (name : String) (bytes : List UInt8) : Act Unit := do
  if !(← writeTo 1 bytes) then
    let reason ← outputFault
    failProgram s!"{name}: write error: {reason}\n"

/-- What the program `echo` does, under a name. -/
def showArguments (name : String) (arguments : List String) : Act Unit := do
  writeOutput name (echoOutput arguments)
  setStatus 0

/-! ## Files one after another -/

/-- A character that may stand in a name that is shown without quotes, also in front. -/
def isPlainInName (c : Char) : Bool :=
  c.isAlphanum || c ∈ ['_', '@', '%', '+', ',', '-', '.', '/', ']']

/-- A name as programs show it: between quotes unless all of it is plain. -/
def shownName (name : String) : String :=
  let cs := name.toList
  let plain : Bool :=
    match cs with
    | [] => false
    | [c] => isPlainInName c
    | c :: rest =>
      (isPlainInName c || c ∈ ['{', '}'])
        && rest.all fun c => isPlainInName c || c ∈ ['{', '}', '#', '~']
  let mild (c : Char) : Bool := isPlainInName c || c ∈ ['{', '}', '#', '~', ' ', ':', '\'']
  if plain then name
  else if cs.contains '\'' && cs.all mild then "\"" ++ name ++ "\""
  else String.ofList ('\'' :: cs.flatMap (fun c =>
    if c = '\'' then ['\'', '\\', '\'', '\''] else [c]) ++ ['\''])

/-- Why a file cannot be read. -/
def readFault (fault : Fault) : String :=
  match fault with
  | .notADirectory => "Not a directory"
  | fault => faultReason "No such file or directory" fault

/-- The stream of an operand, or why there is none: the input for a hyphen, else a file. -/
def operandStream (operand : String) : Act (Except String Nat) := do
  if operand = "-" then
    match (← self).stream? 0 with
    | some stream => return .ok stream
    | none => return .error "Bad file descriptor"
  else return (← openToRead operand).mapError readFault

/-- What the stream of an operand has to read, or why there is nothing. -/
def readOperand (operand : String) : Act (Except String (Nat × List UInt8)) := do
  match ← operandStream operand with
  | .error reason => return .error reason
  | .ok stream =>
    let m := (← get).machine
    match m.pending stream, m.get? stream with
    | some bytes, _ => return .ok (stream, bytes)
    | none, some { medium := .directory, .. } => return .error "Is a directory"
    | none, _ => return .error "Bad file descriptor"

/-- A stream would be read from the file that another one writes behind it. -/
def Machine.feedsItself (m : Machine) (reader writer : Nat) : Bool :=
  match m.get? reader, m.get? writer, m.filePlace? writer with
  | some { medium := .file position, offset, .. }, some { medium := .file other, .. },
    some place => position == other && offset < place
  | _, _, _ => false

/-- Write what the stream of an operand has to read.  That there is nothing to read is told,
and the program fails at its end. -/
def writeOperand (name : String) (writer : Nat) (operand : String) : Act Unit := do
  let complain (reason : String) : Act Unit := do
    let shown := shownName operand
    sayError s!"{name}: {shown}: {reason}\n"
    setStatus 1
  match ← readOperand operand with
  | .error reason => complain reason
  | .ok (stream, bytes) =>
    if (← get).machine.feedsItself stream writer then complain "input file is output file"
    else
      updateMachine fun m => m.advance stream bytes.length
      writeOutput name bytes

/-- The operands among the arguments of a program, and the letters of its flags, which may
stand anywhere in front of a double hyphen. -/
def splitArguments : List String → List Char × List String
  | [] => ([], [])
  | "--" :: rest => ([], rest)
  | argument :: rest =>
    let (letters, operands) := splitArguments rest
    match argument.toList with
    | '-' :: c :: cs => (c :: cs ++ letters, operands)
    | _ => (letters, argument :: operands)

/-- What the program `cat` does, under a name: it writes what its operands name, or its
input.  Its only flag changes nothing. -/
def concatenate (name : String) (arguments : List String) : Act Unit := do
  let (letters, operands) := splitArguments arguments
  match letters.find? (· ≠ 'u') with
  | some c =>
    failProgram s!"{name}: invalid option -- '{c}'\nTry '{name} --help' for more information.\n"
  | none => pure ()
  match (← self).stream? 1 with
  | none => failProgram s!"{name}: standard output: Bad file descriptor\n"
  | some writer =>
    let operands := if operands = [] then ["-"] else operands
    setStatus 0
    operands.forM (writeOperand name writer)
    if operands.contains "-" && ((← self).stream? 0).isNone then
      failProgram s!"{name}: closing standard input: Bad file descriptor\n"

/-! ## Starting -/

/-- The process becomes a program, which is looked for from a place in the search path
on. -/
def becomeProgram {α : Type} (run : Runner) (path name : String) (place : Nat)
    (arguments : List String) : Act α := do
  match programFrom (← filesHere) path name place with
  | .error fault =>
    let reason := faultReason "not found" fault
    warn s!"{name}: {reason}"
    setStatus (if isMissing fault then 127 else 126)
  | .ok utility =>
    update fun p => { p with traps := p.traps.filter fun entry => entry.2 == "" }
    match utility with
    | .shell => run (.newShell name arguments)
    | .succeed => setStatus 0
    | .fail => setStatus 1
    | .echo => showArguments name arguments
    | .concatenate => concatenate name arguments
  throw .done

/-- Run a program, in the process itself where that ends with it. -/
def runProgram (run : Runner) (mode : Mode) (path name : String) (place : Nat)
    (arguments : List String) : Act Unit := do
  if mode.last && !(← self).hasTraps then becomeProgram run path name place arguments
  else inChild run (becomeProgram run path name place arguments)

end NativeBuild.Shell
