import NativeBuild.Shell.Signals

/-!
# Messages

What a shell writes: what its commands say, which is handed on when they end, and its
complaints, which are not kept back.

Main definitions:

- `writeStream` and `writeTo`: writing to a stream.
- `say` and `handOn`: what a command says.
- `warn` and `fault`: complaints.
-/

namespace NativeBuild.Shell

/-! ## Writing -/

/-- Write to a stream; whether that worked.  Of what would make a file too long the part is
written that fits, and the process meets a signal; another one ends a process that writes
to a pipe that takes no more. -/
def writeStream (stream : Nat) (bytes : List UInt8) : Act Bool := do
  if bytes.isEmpty then return true
  let w ← get
  if w.machine.isFullPipe stream then throw (.killed 13)
  let room := match w.machine.filePlace? stream with
    | some place => w.process.limits.room place bytes.length
    | none => bytes.length
  match w.machine.write stream (bytes.take room) with
  | some machine => set { w with machine }
  | none => return false
  if room < bytes.length then
    meetSignal 25
    return false
  return true

/-- Write to a stream of the process; whether that worked. -/
def writeTo (descriptor : Nat) (bytes : List UInt8) : Act Bool := do
  match (← self).stream? descriptor with
  | some stream => writeStream stream bytes
  | none => return bytes.isEmpty

/-! ## What commands say -/

/-- Write to the output of the process when the command ends. -/
def holdBytes (bytes : List UInt8) : Act Unit :=
  update fun p => { p with held := bytes :: p.held }

/-- Write a text to the output of the process when the command ends. -/
def say (text : String) : Act Unit :=
  holdBytes (toBytes text.toList)

/-- Hand on what was written; whether that worked. -/
def handOn : Act Bool := do
  let bytes := (← self).held.reverse.flatten
  update fun p => { p with held := [] }
  if bytes.isEmpty then return true else writeTo 1 bytes

/-! ## Complaints -/

/-- Write a text to the stream of errors. -/
def sayError (text : String) : Act Unit := do
  let _ ← writeTo 2 (toBytes text.toList)

/-- Complain. -/
def warn (text : String) : Act Unit := do
  let p ← self
  let front := match p.command with
    | some command => s!"{p.name}: {p.complaintLine}: {command}: "
    | none => s!"{p.name}: {p.complaintLine}: "
  sayError (front ++ text ++ "\n")

/-- Complain and give up. -/
def fault {α : Type} (text : String) : Act α := do
  warn text
  let _ ← handOn
  setStatus 2
  throw .fault

/-- Complain about the script itself and give up. -/
def faultOfScript {α : Type} (line : Nat) (reason : String) : Act α := do
  update fun p => { p with complaintLine := line }
  fault s!"Syntax error: {reason}"

/-- Note the line of a command. -/
def atLine (line : Nat) : Act Unit :=
  update fun p => { p with complaintLine := line }

end NativeBuild.Shell
