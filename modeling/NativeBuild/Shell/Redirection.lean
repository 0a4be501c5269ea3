import NativeBuild.Shell.Device
import NativeBuild.Shell.Expand
import NativeBuild.Shell.Search

/-!
# Redirections

Where the streams of a command go.  The names in redirections are expanded first; then the
files are opened one after another, and after the command the streams are as they were.

Main definitions:

- `openFile`: the stream of a file.
- `targetsOf`, `redirectAll`, `redirectFrom` and `restoreStreams`: the streams of a command.
-/

namespace NativeBuild.Shell

/-! ## Expansion -/

/-- The number of a stream, or the hyphen that closes one. -/
def sourceOf (text : String) : Act (Option Nat) := do
  match text.toList with
  | ['-'] => return none
  | [c] =>
    if c.isDigit then return some (c.toNat - 48) else bad
  | _ => bad
where
  /-- The text is no number of a stream. -/
  bad : Act (Option Nat) := do
    faultOfScript (← self).readLine "Bad fd number"

/-- A redirection with its names expanded. -/
def targetOfRedirect (run : Interpreter) : Redirect → Act Target
  | .file stream mode name => do
    return .file stream mode (← textOf run { tilde := true } name)
  | .duplicate stream source => return .duplicate stream source
  | .duplicateNamed stream source => do
    return .duplicate stream (← sourceOf (← textOf run { tilde := true } source))
  | .document stream text => return .text stream text

/-- Redirections with their names expanded. -/
def targetsOf (run : Interpreter) (redirects : List Redirect) : Act (List Target) :=
  redirects.mapM (targetOfRedirect run)

/-! ## Opening -/

/-- The streams of a mode can be read and written. -/
def FileMode.rights : FileMode → Bool × Bool
  | .read => (true, false)
  | .readWrite => (true, true)
  | _ => (false, true)

/-- A stream of a mode. -/
def FileMode.streamOf (mode : FileMode) (medium : Medium) : Stream :=
  { medium, readable := mode.rights.1, writable := mode.rights.2, appending := mode == .append }

/-- A file is emptied when it is opened. -/
def FileMode.empties (mode : FileMode) : Bool :=
  mode == .write || mode == .overwrite

/-- A file cannot be opened, or created where it may be. -/
def cannotOpen {α : Type} (creating : Bool) (name : String) (reason : Fault) : Act α :=
  if !creating then
    let said := faultReason "No such file" reason
    fault s!"cannot open {name}: {said}"
  else
    let said := faultReason "Directory nonexistent" reason
    fault s!"cannot create {name}: {said}"

/-- A new stream. -/
def addStream (stream : Stream) : Act Nat :=
  modifyGet fun w =>
    let (number, machine) := w.machine.add stream
    (number, { w with machine })

/-- A new pipe: its end to read and its end to write. -/
def addPipe (content : List UInt8) : Act (Nat × Nat) :=
  modifyGet fun w =>
    let (reader, writer, machine) := w.machine.addPipe content
    ((reader, writer), { w with machine })

/-- The stream of a file that is there. -/
def openPresent (mode : FileMode) (name : String) (position : List FileName) (node : Node) :
    Act Nat := do
  match node, deviceAt? position with
  | .file _, some .terminal => cannotOpen true name .noDevice
  | .file _, some device => addStream (mode.streamOf device.medium)
  | .file _, none =>
    if mode = .write ∧ (← self).has .noclobber then cannotOpen true name .alreadyExists
    else
      if mode.empties then updateMachine fun m => m.putContent position []
      addStream (mode.streamOf (.file position))
  | _, _ =>
    if mode = .read then addStream (mode.streamOf .directory)
    else
      let protecting := mode == .write && (← self).has .noclobber
      cannotOpen (!protecting) name .isADirectory

/-- Another stream of what a stream of the process belongs to; none where it is closed. -/
def openOwn? (mode : FileMode) (name : String) (descriptor : Nat) : Act (Option Nat) := do
  let w ← get
  match (w.process.stream? descriptor).bind w.machine.get? with
  | none => return none
  | some { medium := .file position, .. } => some <$> openPresent mode name position (.file [])
  | some { medium, .. } => some <$> addStream (mode.streamOf medium)

/-- The stream of a file that is read, or why there is none. -/
def openToRead (name : String) : Act (Except Fault Nat) := do
  match ownStream? name with
  | some descriptor =>
    match ← openOwn? .read name descriptor with
    | some stream => return .ok stream
    | none => return .error .notFound
  | none =>
    match (← filesHere).locate .target (pathOf name) with
    | .ok (.present position node) =>
      if deviceAt? position = some .terminal then return .error .noDevice
      else .ok <$> openPresent .read name position node
    | .ok (.absent ..) => return .error .notFound
    | .error reason => return .error reason

/-- The stream of a file that is written, and made where there is none. -/
def openToWrite (mode : FileMode) (name : String) : Act Nat := do
  match ownStream? name with
  | some descriptor =>
    match ← openOwn? mode name descriptor with
    | some stream => return stream
    | none => cannotOpen true name .notFound
  | none =>
    match (← filesHere).locate .output (pathOf name) with
    | .ok (.present position node) => openPresent mode name position node
    | .ok (.absent directory file) =>
      let position := directory ++ [file]
      updateMachine fun m => m.putContent position []
      addStream (mode.streamOf (.file position))
    | .error reason => cannotOpen true name reason

/-- The stream of a file. -/
def openFile (mode : FileMode) (name : String) : Act Nat := do
  if mode = .read then
    match ← openToRead name with
    | .ok stream => return stream
    | .error reason => cannotOpen false name reason
  else openToWrite mode name

/-! ## Redirecting -/

/-- Let a stream of the process be a certain stream. -/
def bindStream (descriptor : Nat) (stream : Option Nat) : Act Unit :=
  update fun p => p.withStream descriptor stream

/-- Redirect a stream.  It may have to be closed where the other stream is not there. -/
def redirectOne (run : Interpreter) (closing : Bool) : Target → Act Unit
  | .file descriptor mode name => do
    bindStream descriptor (some (← openFile mode name))
  | .duplicate descriptor source => do
    match source with
    | none => bindStream descriptor none
    | some source =>
      match (← self).stream? source with
      | some stream => bindStream descriptor (some stream)
      | none =>
        if source ≠ descriptor then
          if closing then bindStream descriptor none
          fault s!"{source}: Bad file descriptor"
  | .text descriptor word => do
    let text ← textOf run { quoted := true } word
    let (reader, _) ← addPipe (toBytes text.toList)
    bindStream descriptor (some reader)

/-- Redirect streams, one after another, up to the end of the process. -/
def redirectAll (run : Interpreter) (targets : List Target) : Act Unit :=
  targets.forM (redirectOne run false)

/-- Redirect streams, one after another, so that they can be restored: each is put away
before it is something else, unless it was put away already. -/
def redirectFrom (run : Interpreter) (away : List Nat) : List Target → Act Unit
  | [] => return ()
  | target :: rest => do
    redirectOne run (!away.contains target.stream) target
    redirectFrom run (target.stream :: away) rest

/-- Let the redirected streams be what they were before. -/
def restoreStreams (targets : List Target) (before : Process) : Act Unit :=
  targets.forM fun target => bindStream target.stream (before.stream? target.stream)

end NativeBuild.Shell
