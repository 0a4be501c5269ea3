import NativeBuild.FileSystem.Operations

/-!
# Programs of a host

A host starts programs by their names.  A program that runs may change files, writes to
its two streams, and ends with a status or by a signal.

Main definitions:

- `Finished`: how a program ended.
- `Program`: what a program does.
- `Host`: which programs there are.
-/

namespace NativeBuild

/-- How a program ended and what it wrote. -/
structure Finished where
  /-- The status; none when a signal ended the program. -/
  status : Option Nat := some 0
  stdout : List UInt8 := []
  stderr : List UInt8 := []
deriving DecidableEq, Repr

/-- A program succeeded when its status is zero. -/
def Finished.success (finished : Finished) : Bool :=
  finished.status == some 0

/-- What a program does with its arguments and the files. -/
abbrev Program := List String → FileSystem → Finished × FileSystem

/-- Which programs there are; one that is missing has a reason. -/
structure Host where
  find : FileSystem → String → Except Fault Program

/-- Start a program with its arguments, none of which may hold a zero byte. -/
def Host.start (host : Host) (name : String) (arguments : List String) (fs : FileSystem) :
    Except Fault (Finished × FileSystem) :=
  if (name :: arguments).any (·.toList.contains '\x00') then .error .zeroArgument
  else (host.find fs name).map fun program => program arguments fs

end NativeBuild
