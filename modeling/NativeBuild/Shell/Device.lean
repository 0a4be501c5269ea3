import NativeBuild.Shell.Stream

/-!
# Devices

Paths that lead to no file: devices, and the streams of the process itself.

Main definitions:

- `Device`: the devices.
- `deviceAt?`: the device at a position.
- `ownStream?`: the stream of the process that a path names.
- `Subject`: what a path leads to, where its kind matters.
- `Machine.subjectAt`: what is at a path.
-/

namespace NativeBuild.Shell

/-! ## Devices -/

/-- A device. -/
inductive Device where
  /-- Nothing is read and all is forgotten. -/
  | null
  /-- Nothing can be written. -/
  | full
  /-- Nobody is there. -/
  | terminal
deriving DecidableEq, Repr

/-- What a stream of a device belongs to. -/
def Device.medium : Device → Medium
  | .full => .full
  | _ => .null

/-- The device at a position. -/
def deviceAt? (position : List FileName) : Option Device :=
  let isOneOf (names : List String) : Bool :=
    names.any fun name => position == [Text.utf8 "dev", Text.utf8 name]
  if isOneOf ["full"] then some .full
  else if isOneOf ["tty"] then some .terminal
  else if isOneOf deviceNames then some .null
  else none

/-- The stream of the process itself that a path names. -/
def ownStream? (path : String) : Option Nat :=
  if path = "/dev/stdin" then some 0
  else if path = "/dev/stdout" then some 1
  else if path = "/dev/stderr" then some 2
  else
    ["/dev/fd/", "/proc/self/fd/"].findSome? fun front =>
      if path.startsWith front then digits? (path.drop front.length).toString else none

/-! ## Kinds -/

/-- What a path leads to. -/
inductive Subject where
  | nothing
  | file (position : List FileName) (content : List UInt8)
  | directory (position : List FileName)
  | device (position : List FileName)
  | pipe
deriving DecidableEq, Repr

/-- The subject of a file that is there. -/
def Subject.ofNode (position : List FileName) : Node → Subject
  | .file content =>
    if (deviceAt? position).isSome then .device position else .file position content
  | .directory _ => .directory position
  | .link _ => .nothing

/-- What a stream belongs to. -/
def Machine.subjectOf (m : Machine) (number : Nat) : Subject :=
  match (m.get? number).map Stream.medium with
  | none => .nothing
  | some .null => .device [Text.utf8 "dev", Text.utf8 "null"]
  | some .full => .device [Text.utf8 "dev", Text.utf8 "full"]
  | some .output => .pipe
  | some .errors => .pipe
  | some (.pipe _) => .pipe
  | some .directory => .directory []
  | some (.file position) => .file position (m.content position)

/-- What is at a path, among some files, for a process with some streams. -/
def Machine.subjectAt (m : Machine) (fs : FileSystem) (streams : List (Nat × Nat))
    (path : String) : Subject :=
  match ownStream? path with
  | some descriptor => ((streams.lookup descriptor).map m.subjectOf).getD .nothing
  | none =>
    match fs.locate .target (pathOf path) with
    | .ok (.present position node) => .ofNode position node
    | _ => .nothing

/-- Two paths lead to the same place. -/
def Subject.isSame : Subject → Subject → Bool
  | .file here _, .file there _ => here == there
  | .directory here, .directory there => here == there
  | .device here, .device there => here == there
  | _, _ => false

end NativeBuild.Shell
