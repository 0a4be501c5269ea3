import NativeBuild.Shell.Text

/-!
# Limits

How much a process may use of what there is.  Every limit has a value that holds and a
value up to which the process may raise the first one; it may lower both and raise only
the first.

Main definitions:

- `Resource`: what is limited.
- `Limit` and `Limits`: one limit, and all of them.
- `Limits.change`: another limit, if the process may have it.
- `readLimit?` and `showLimit`: values as texts.
-/

namespace NativeBuild.Shell

/-! ## Resources -/

/-- What a process can use only so much of. -/
inductive Resource where
  /-- Seconds of work. -/
  | time
  /-- The length of a file. -/
  | file
  | data
  | stack
  /-- The length of what is left of a process that crashed. -/
  | core
  | memory
  | lockedMemory
  | processes
  /-- Streams that are open. -/
  | streams
  | addresses
  | locks
  | priority
deriving DecidableEq, Repr

namespace Resource

/-- All resources, in the order in which they are listed. -/
def all : List Resource :=
  [.time, .file, .data, .stack, .core, .memory, .lockedMemory, .processes, .streams,
    .addresses, .locks, .priority]

/-- The letter of a resource. -/
def letter : Resource → Char
  | .time => 't'
  | .file => 'f'
  | .data => 'd'
  | .stack => 's'
  | .core => 'c'
  | .memory => 'm'
  | .lockedMemory => 'l'
  | .processes => 'p'
  | .streams => 'n'
  | .addresses => 'v'
  | .locks => 'w'
  | .priority => 'r'

/-- The name of a resource in a list. -/
def title : Resource → String
  | .time => "time(seconds)"
  | .file => "file(blocks)"
  | .data => "data(kbytes)"
  | .stack => "stack(kbytes)"
  | .core => "coredump(blocks)"
  | .memory => "memory(kbytes)"
  | .lockedMemory => "locked memory(kbytes)"
  | .processes => "process"
  | .streams => "nofiles"
  | .addresses => "vmemory(kbytes)"
  | .locks => "locks"
  | .priority => "rtprio"

/-- What one of a resource counts for. -/
def unit : Resource → UInt64
  | .file => 512
  | .core => 512
  | .data => 1024
  | .stack => 1024
  | .memory => 1024
  | .lockedMemory => 1024
  | .addresses => 1024
  | _ => 1

/-- The resource of a letter. -/
def ofLetter? (c : Char) : Option Resource :=
  all.find? fun resource => resource.letter == c

end Resource

/-! ## Limits -/

/-- The value that does not limit anything, which is the greatest one. -/
def unlimited : UInt64 := 0xFFFFFFFFFFFFFFFF

/-- A limit. -/
structure Limit where
  /-- The value that holds. -/
  soft : UInt64 := unlimited
  /-- The value up to which it may be raised. -/
  hard : UInt64 := unlimited
deriving DecidableEq, Repr

/-- The limits of a process. -/
abbrev Limits := Resource → Limit

/-- Why a process may not have a limit. -/
inductive LimitFault where
  /-- The value that holds would be above the one up to which it may be raised. -/
  | crossed
  /-- The value up to which it may be raised would grow. -/
  | raised
deriving DecidableEq, Repr

/-- What is said of a fault. -/
def LimitFault.reason : LimitFault → String
  | .crossed => "Invalid argument"
  | .raised => "Operation not permitted"

namespace Limits

/-- The limits that processes start with. -/
def usual : Limits
  | .stack => { soft := 8192 * 1024 }
  | .core => { soft := 0 }
  | .lockedMemory => ⟨8192 * 1024, 8192 * 1024⟩
  | .processes => ⟨128619, 128619⟩
  | .streams => ⟨20000, 20000⟩
  | .priority => ⟨0, 0⟩
  | _ => {}

/-- The limits with another one of a resource. -/
def put (limits : Limits) (resource : Resource) (limit : Limit) : Limits :=
  fun other => if other = resource then limit else limits other

/-- The limits with another one of a resource, if the process may have it. -/
def change (limits : Limits) (resource : Resource) (limit : Limit) :
    Except LimitFault Limits :=
  if limit.hard < limit.soft then .error .crossed
  else if (limits resource).hard < limit.hard then .error .raised
  else .ok (limits.put resource limit)

/-- How much of so many bytes fits into a file from a place on. -/
def room (limits : Limits) (place length : Nat) : Nat :=
  if (limits .file).soft = unlimited then length
  else min length ((limits .file).soft.toNat - place)

end Limits

/-! ## Texts -/

/-- The value of a limit that a text asks for, in units of the resource. -/
def readLimit? (resource : Resource) (text : String) : Option UInt64 :=
  if text = "unlimited" then some unlimited
  else if text.toList.all Char.isDigit then
    some (UInt64.ofNat (numberIn 10 text.toList) * resource.unit)
  else none

/-- The value of a limit, in units of the resource. -/
def showLimit (resource : Resource) (value : UInt64) : String :=
  if value = unlimited then "unlimited" else toString (value / resource.unit).toInt64

end NativeBuild.Shell
