import NativeBuild.Error.Build

/-!
# Reports

What a command prints, and the status it ends with.

Main definitions:

- `Report`: lines for the two streams and a status.
- `Failure`: why a command as a whole failed, with its causes.
- `Failure.render`: how a failure is printed.
-/

namespace NativeBuild.CommandLine

/-! ## Lines -/

/-- A line of a report. -/
inductive Line where
  | text (text : String)
  /-- The line that closes a build; it ends with the time that the build took. -/
  | finished (projects units : Nat)
deriving DecidableEq, Repr

/-- A label at the end of ten places. -/
def label (text : String) : String :=
  String.ofList (List.replicate (10 - text.length) ' ') ++ text

/-- The text of a line, with the elapsed time as text. -/
def Line.render (elapsed : String) : Line → String
  | .text content => content ++ "\n"
  | .finished projects units =>
    label "Finished" ++ s!" {projects} project(s), {units} object(s) in {elapsed}\n"

/-! ## Failures -/

/-- Why a command as a whole failed. -/
structure Failure where
  message : String
  /-- What lies behind it, outermost first. -/
  causes : List String := []
deriving DecidableEq, Repr

/-- A configuration error as a failure. -/
def Failure.ofConfig (error : ConfigError) : Failure :=
  ⟨error.message, (error.cause?.map Fault.message).toList⟩

/-- A build error as a failure. -/
def Failure.ofBuild (error : BuildError) : Failure :=
  ⟨error.message, error.causes⟩

/-- A failure behind another one that says what was tried. -/
def Failure.behind (failure : Failure) (message : String) : Failure :=
  ⟨message, failure.message :: failure.causes⟩

/-- A text with blanks in front of every line but the first. -/
def indented (blanks : Nat) (text : String) : String :=
  String.ofList (text.toList.flatMap fun c =>
    if c = '\n' then c :: List.replicate blanks ' ' else [c])

/-- A number at the end of five places. -/
def numbered (n : Nat) : String :=
  let digits := toString n
  String.ofList (List.replicate (5 - digits.length) ' ') ++ digits

/-- The lines of causes: a single one as it is, several with their numbers. -/
def causeLines : List String → String
  | [cause] => "\n    " ++ indented 4 cause
  | causes =>
    String.join (causes.mapIdx fun n cause => s!"\n{numbered n}: {indented 7 cause}")

/-- How a failure is printed. -/
def Failure.render (failure : Failure) : String :=
  "Error: " ++ failure.message
    ++ (if failure.causes = [] then "" else "\n\nCaused by:" ++ causeLines failure.causes)

/-! ## Reports -/

/-- What a command prints, and its status. -/
structure Report where
  status : Nat := 0
  out : List Line := []
  /-- The texts for the error stream, a line each. -/
  err : List String := []
deriving DecidableEq, Repr

namespace Report

/-- A report of lines on the output stream. -/
def lines (texts : List String) : Report :=
  { out := texts.map .text }

/-- The report of a failure. -/
def failure (failure : Failure) : Report :=
  { status := 1, err := [failure.render] }

/-- What is printed on the output stream. -/
def stdout (report : Report) (elapsed : String) : String :=
  String.join (report.out.map (·.render elapsed))

/-- What is printed on the error stream. -/
def stderr (report : Report) : String :=
  String.join (report.err.map (· ++ "\n"))

/-- A report followed by another one. -/
def append (first second : Report) : Report :=
  { status := second.status, out := first.out ++ second.out, err := first.err ++ second.err }

end Report

end NativeBuild.CommandLine
