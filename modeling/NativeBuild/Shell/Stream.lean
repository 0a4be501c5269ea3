import NativeBuild.Host.System
import NativeBuild.Shell.Text

/-!
# Streams

What all processes share: the files, the streams that are open, the pipes and what was
written.  A stream has a place in its file, which moves for everyone who uses the stream.

Main definitions:

- `Stream`: an open stream.
- `Machine`: what processes share.
- `Machine.write` and `Machine.pending`: writing to a stream and what it has to read.
-/

namespace NativeBuild.Shell

/-- What a stream belongs to. -/
inductive Medium where
  /-- Nothing is read and all is forgotten. -/
  | null
  /-- Nothing can be written. -/
  | full
  /-- What the program writes. -/
  | output
  /-- What the program writes about errors. -/
  | errors
  | file (position : List FileName)
  | directory
  /-- What is written is read from the other end. -/
  | pipe (number : Nat)
deriving DecidableEq, Repr, Inhabited

/-- An open stream. -/
structure Stream where
  medium : Medium
  readable : Bool := false
  writable : Bool := false
  /-- What is written goes to the end. -/
  appending : Bool := false
  /-- The place in the file. -/
  offset : Nat := 0
deriving Repr, Inhabited

/-- What was written to a pipe and not read yet. -/
structure Pipe where
  /-- What is read first. -/
  front : List UInt8 := []
  /-- What is read after that, in pieces, the last first. -/
  back : List (List UInt8) := []
  /-- How often it was written to. -/
  writes : Nat := 0
deriving Repr, Inhabited

namespace Pipe

/-- All that is to be read. -/
def content (pipe : Pipe) : List UInt8 :=
  pipe.front ++ pipe.back.reverse.flatten

/-- The pipe with more bytes written. -/
def write (pipe : Pipe) (bytes : List UInt8) : Pipe :=
  { pipe with back := bytes :: pipe.back, writes := pipe.writes + 1 }

/-- The pipe after so many bytes were read. -/
def advance (pipe : Pipe) (count : Nat) : Pipe :=
  { pipe with front := pipe.content.drop count, back := [] }

end Pipe

/-- What processes share. -/
structure Machine where
  files : FileSystem
  streams : Array Stream := #[]
  pipes : Array Pipe := #[]
  /-- What was written, in pieces, the last first. -/
  output : List (List UInt8) := []
  errors : List (List UInt8) := []
  /-- The number of the last process. -/
  processes : Nat := 4096
  /-- The processes that signals may be sent to. -/
  alive : List Nat := []
  /-- Signals that processes have not met yet. -/
  signals : List (Nat × Nat) := []

namespace Machine

/-! ## Streams -/

/-- Add a stream; its number is the number of streams so far. -/
def add (m : Machine) (stream : Stream) : Nat × Machine :=
  (m.streams.size, { m with streams := m.streams.push stream })

/-- The stream of a number. -/
def get? (m : Machine) (number : Nat) : Option Stream :=
  m.streams[number]?

/-- The machine with a stream at another place. -/
def seek (m : Machine) (number offset : Nat) : Machine :=
  { m with streams := m.streams.modify number fun stream => { stream with offset } }

/-- Add a pipe: its number, and its end to read and its end to write. -/
def addPipe (m : Machine) (content : List UInt8) : Nat × Nat × Machine :=
  let number := m.pipes.size
  let m := { m with pipes := m.pipes.push { front := content } }
  let (reader, m) := m.add { medium := .pipe number, readable := true }
  let (writer, m) := m.add { medium := .pipe number, writable := true }
  (reader, writer, m)

/-! ## Files -/

/-- The content of the file at a position. -/
def content (m : Machine) (position : List FileName) : List UInt8 :=
  match m.files.at? position with
  | some (.file bytes) => bytes
  | _ => []

/-- The machine with another content of the file at a position. -/
def putContent (m : Machine) (position : List FileName) (bytes : List UInt8) : Machine :=
  match position.getLast? with
  | some name => { m with files := m.files.bindName position.dropLast name (.file bytes) }
  | none => m

/-- A content with bytes written at a place; a gap before them is filled with zeros. -/
def overwritten (content : List UInt8) (offset : Nat) (bytes : List UInt8) : List UInt8 :=
  if bytes = [] then content
  else if offset = content.length then content ++ bytes
  else
    content.take offset ++ List.replicate (offset - content.length) 0 ++ bytes
      ++ content.drop (offset + bytes.length)

/-! ## Reading and writing -/

/-- What a stream has to read from its place on; none where it cannot be read. -/
def pending (m : Machine) (number : Nat) : Option (List UInt8) :=
  match m.get? number with
  | none => none
  | some stream =>
    if !stream.readable then none
    else
      match stream.medium with
      | .file position => some ((m.content position).drop stream.offset)
      | .pipe pipe => some (m.pipes.getD pipe {}).content
      | .directory => none
      | .output => none
      | .errors => none
      | .null => some []
      | .full => some []

/-- The machine after so many bytes of a stream were read. -/
def advance (m : Machine) (number count : Nat) : Machine :=
  match m.get? number with
  | none => m
  | some stream =>
    match stream.medium with
    | .file _ => m.seek number (stream.offset + count)
    | .pipe pipe => { m with pipes := m.pipes.modify pipe fun pipe => pipe.advance count }
    | _ => m

/-- The place in its file where a stream writes next; none where it belongs to no file. -/
def filePlace? (m : Machine) (number : Nat) : Option Nat :=
  match m.get? number with
  | some { medium := .file position, appending, offset, .. } =>
    some (if appending then (m.content position).length else offset)
  | _ => none

/-- The machine after bytes were written to a stream; none where they cannot be. -/
def write (m : Machine) (number : Nat) (bytes : List UInt8) : Option Machine :=
  match m.get? number with
  | none => none
  | some stream =>
    if !stream.writable then none
    else
      match stream.medium with
      | .null => some m
      | .full => none
      | .directory => none
      | .output => some { m with output := bytes :: m.output }
      | .errors => some { m with errors := bytes :: m.errors }
      | .pipe pipe => some { m with pipes := m.pipes.modify pipe fun pipe => pipe.write bytes }
      | .file position =>
        let content := m.content position
        let offset := (m.filePlace? number).getD 0
        some ((m.putContent position (overwritten content offset bytes)).seek number
          (offset + bytes.length))

/-- How often a pipe may be written to that nobody reads. -/
def maxWrites : Nat := Nat.pow 2 17

/-- A stream leads to a pipe that takes no more. -/
def isFullPipe (m : Machine) (number : Nat) : Bool :=
  match m.get? number with
  | some { medium := .pipe pipe, .. } => maxWrites < (m.pipes.getD pipe {}).writes
  | _ => false

/-! ## Signals -/

/-- Send a signal to a process. -/
def send (m : Machine) (process signal : Nat) : Machine :=
  { m with signals := m.signals ++ [(process, signal)] }

/-- The signals that a process has not met yet. -/
def signalsFor (m : Machine) (process : Nat) : List Nat :=
  (m.signals.filter fun entry => entry.1 == process).map (·.2)

/-- The machine after a process has met its signals. -/
def withoutSignalsFor (m : Machine) (process : Nat) : Machine :=
  { m with signals := m.signals.filter fun entry => entry.1 != process }

end Machine

end NativeBuild.Shell
