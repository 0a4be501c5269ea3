import NativeBuild.Path.Basic

/-!
# Faults of the file system

The reasons for which the system refuses an operation on a file, a directory or a
program, and their wording.

Main definitions:

- `Fault`: one reason.
- `Fault.message`: its wording.
- `WalkFault`: a directory that a walk cannot read, and why.
-/

namespace NativeBuild

/-- Why the system refused an operation. -/
inductive Fault where
  /-- Nothing has that path. -/
  | notFound
  /-- The file may not be used this way. -/
  | permissionDenied
  /-- Something has that path already. -/
  | alreadyExists
  /-- A step of the path leads through something that is no directory. -/
  | notADirectory
  /-- A file was asked for and there is a directory. -/
  | isADirectory
  /-- Too many symbolic links on the way. -/
  | linkLoop
  /-- A name or path is longer than the system takes. -/
  | nameTooLong
  /-- The current directory was to be removed by its short name. -/
  | invalidArgument
  /-- The content is no UTF-8. -/
  | notText
  /-- The path holds a zero byte. -/
  | zeroByte
  /-- The name of a program or one of its arguments holds a zero byte. -/
  | zeroArgument
  /-- There is nothing behind a device. -/
  | noDevice
  /-- Any other reason. -/
  | other
deriving DecidableEq, Repr, Inhabited

/-- The wording of a fault. -/
def Fault.message : Fault → String
  | .notFound => "No such file or directory (os error 2)"
  | .permissionDenied => "Permission denied (os error 13)"
  | .alreadyExists => "File exists (os error 17)"
  | .notADirectory => "Not a directory (os error 20)"
  | .isADirectory => "Is a directory (os error 21)"
  | .linkLoop => "Too many levels of symbolic links (os error 40)"
  | .nameTooLong => "File name too long (os error 36)"
  | .invalidArgument => "Invalid argument (os error 22)"
  | .notText => "stream did not contain valid UTF-8"
  | .zeroByte => "file name contained an unexpected NUL byte"
  | .zeroArgument => "nul byte found in provided data"
  | .noDevice => "No such device or address (os error 6)"
  | .other => "other error"

/-- A directory that a walk met and cannot read, and why. -/
structure WalkFault where
  path : Path
  fault : Fault
deriving DecidableEq, Repr

/-- The wording of what stops a walk. -/
def WalkFault.message (stop : WalkFault) : String :=
  s!"IO error for operation on {stop.path.display}: {stop.fault.message}"

end NativeBuild
