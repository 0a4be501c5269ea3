import NativeBuild.Toolchain.Call

/-!
# Scripted toolchains

A toolchain for rehearsals: it runs no program and fails where a rule says so.
Directories and generated files are really made, in the tree of files that is its world.

Main definitions:

- `FailureRule`: which calls fail, how, and how often.
- `useRule`: what the rules say about a call, and the rules left after it.
- `scriptedBackend`: the toolchain.
-/

namespace NativeBuild

/-- The name of a call's operation. -/
def ToolCall.operation : ToolCall → String
  | .makeDirectory _ => "make_directory"
  | .removeDirectoryTree _ => "remove_directory_tree"
  | .compile .. => "compile"
  | .assemble .. => "assemble"
  | .archive .. => "archive"
  | .link .. => "link"
  | .disassemble .. => "disassemble"

/-- The path that a call is known by: its source, its output or its directory. -/
def ToolCall.subject : ToolCall → Path
  | .makeDirectory path => path
  | .removeDirectoryTree path => path
  | .compile source _ _ _ _ => source
  | .assemble source _ => source
  | .archive _ output => output
  | .link _ _ output _ => output
  | .disassemble _ output => output

/-- Calls that fail. -/
structure FailureRule where
  operation : String
  /-- The end of the path that a call is known by. -/
  ending : String
  error : BuildError
  /-- How many more calls fail; none means all of them. -/
  uses : Option Nat := none
deriving DecidableEq, Repr

namespace FailureRule

/-- The rule applies to a call. -/
def applies (rule : FailureRule) (call : ToolCall) : Bool :=
  rule.operation == call.operation && rule.uses != some 0
    && (Text.utf8 rule.ending).isSuffixOf (Text.utf8 call.subject.display)

/-- The rule after one more use. -/
def used (rule : FailureRule) : FailureRule :=
  { rule with uses := rule.uses.map (· - 1) }

end FailureRule

/-- The error of the first rule that applies to a call, and the rules after its use. -/
def useRule (call : ToolCall) : List FailureRule → Option BuildError × List FailureRule
  | [] => (none, [])
  | rule :: rest =>
    if rule.applies call then (some rule.error, rule.used :: rest)
    else
      let (error, rest) := useRule call rest
      (error, rule :: rest)

/-- The world of a scripted toolchain. -/
structure Rehearsal where
  files : FileSystem
  rules : List FailureRule := []

namespace Rehearsal

/-- Act on the tree of files. -/
def onFiles {α : Type} (action : EStateM BuildError FileSystem α) :
    EStateM BuildError Rehearsal α := fun world =>
  match action world.files with
  | .ok a files => .ok a { world with files }
  | .error e files => .error e { world with files }

/-- Carry out a call, unless a rule makes it fail. -/
def perform (call : ToolCall) : EStateM BuildError Rehearsal Unit := fun world =>
  match useRule call world.rules with
  | (some error, rules) => .error error { world with rules }
  | (none, _) => onFiles (FileSystem.performDirectoryCall call) world

end Rehearsal

/-- The scripted toolchain, with the build date for generated files. -/
def scriptedBackend (date : String) : Backend Rehearsal where
  perform := Rehearsal.perform
  generate p := Rehearsal.onFiles (do let _ ← p.generate date)
  scan directory := Rehearsal.onFiles (FileSystem.scanSources directory)

end NativeBuild
