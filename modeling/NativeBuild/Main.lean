import NativeBuild.CommandLine.Commands
import NativeBuild.CommandLine.Snapshot
import NativeBuild.Host.Builtin

/-!
# The command line program

A rehearsal of a command: the workspace is read as a snapshot from the standard input,
the command works on it with the built-in programs, and its report is printed.  The
options, the environment and the reports are those of `CommandLine.run`.
-/

namespace NativeBuild

/-- The names of the environment variables that count, for the command or for the programs
that it runs. -/
def variableNames : List String :=
  ["PATH", "HOME", CommandLine.rootVariable] ++ Tool.all.map Tool.variableName

/-- The environment, as far as it counts. -/
def readEnvironment : IO Environment := do
  let found ← variableNames.mapM fun name => do
    return (name, ← IO.getEnv name)
  return found.filterMap fun entry => entry.2.map fun value => (entry.1, Text.utf8 value)

/-- All lines of the standard input from here on. -/
partial def readLines (input : IO.FS.Stream) (before : List String) : IO (List String) := do
  let line ← input.getLine
  if line.isEmpty then return before.reverse else readLines input (line :: before)

/-- A time in milliseconds as seconds with two places. -/
def showSeconds (milliseconds : Nat) : String :=
  let hundredths := (milliseconds + 5) / 10
  let rest := hundredths % 100
  s!"{hundredths / 100}." ++ (if rest < 10 then "0" else "") ++ s!"{rest}s"

/-- Run a command on a snapshot and print its report. -/
def rehearse (arguments : List String) (fs : FileSystem) : IO UInt32 := do
  let env ← readEnvironment
  let within : CommandLine.Surroundings := { env, host := builtinHost env }
  let start ← IO.monoMsNow
  let report := (CommandLine.run within arguments fs).1
  IO.eprint report.stderr
  let elapsed := showSeconds ((← IO.monoMsNow) - start)
  IO.print (report.stdout elapsed)
  return UInt32.ofNat report.status

end NativeBuild

/-- The program: a snapshot on the standard input, the command in the arguments. -/
def main (arguments : List String) : IO UInt32 := do
  let lines ← NativeBuild.readLines (← IO.getStdin) []
  match NativeBuild.FileSystem.ofSnapshot? (String.join lines) with
  | some fs => NativeBuild.rehearse arguments fs
  | none =>
    IO.eprintln "Error: the snapshot on the standard input is malformed"
    return 1
