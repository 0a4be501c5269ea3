import NativeBuild.Build.Clean
import NativeBuild.CommandLine.Arguments
import NativeBuild.CommandLine.FailedStages
import NativeBuild.CommandLine.Report
import NativeBuild.Summary
import NativeBuild.Toolchain.Command

/-!
# Commands

The commands of the command line program, each a report and its effect on the files.

Main definitions:

- `Surroundings`: what a call is made in, the texts of the reader of arguments among it.
- `open?`: the workspace and the registry that a command works with.
- `list`, `info`, `clean` and `build`: the commands.
- `run`: a call with its arguments.
-/

namespace NativeBuild.CommandLine

/-- The texts of the reader of arguments, which are its own: what it prints when help is asked
for, and what it prints of arguments that make no sense. -/
structure ArgumentTexts where
  help : List String := []
  usage : List String := []

/-- What a call is made in, the files apart. -/
structure Surroundings where
  env : Environment := []
  host : Host
  /-- The build date for generated files. -/
  date : String := ""
  texts : ArgumentTexts := {}

/-- The workspace of a command with its projects. -/
structure Opened where
  workspace : Workspace
  registry : Registry

namespace Opened

/-! ## Opening a workspace -/

/-- The workspace of a start directory with its projects. -/
def load (fs : FileSystem) (env : Environment) (start : Path) : Except Failure Opened :=
  match Workspace.load fs env start with
  | .error error =>
    .error ((Failure.ofConfig error).behind
      s!"Failed to load configuration from {start.display}")
  | .ok workspace =>
    match Registry.load workspace fs with
    | .error error => .error ((Failure.ofBuild error).behind "Failed to discover projects")
    | .ok registry => .ok ⟨workspace, registry⟩

/-- What builds of the workspace work with. -/
def setup (opened : Opened) (within : Surroundings) : BuildSetup FileSystem where
  registry := opened.registry
  backend := commandBackend opened.workspace.settings.tools within.host within.date
  scripts := opened.workspace.linkScripts

/-- Refuse a selection with an id that is not registered. -/
def check (opened : Opened) : Selection → Except Failure Unit
  | .all => .ok ()
  | .ids ids =>
    match ids.find? fun id => !opened.registry.contains id with
    | some id => .error ⟨s!"Unknown project '{id}'", []⟩
    | none => .ok ()

/-! ## Listing -/

/-- What is said of paths that a document cannot hold. -/
def unwritable : Failure :=
  ⟨"path contains invalid UTF-8 characters", []⟩

/-- A project in the listing as a document, its keys in order. -/
def listed? (p : Project) : Option Json.Value := do
  return .record [
    ("id", .string p.id),
    ("kind", .string p.kind.name),
    ("output", ← optionalPathToJson? p.output?),
    ("root", ← p.root.toJson?)]

/-- A text with blanks after it, to a width in characters. -/
def padded (width : Nat) (text : String) : String :=
  text ++ String.ofList (List.replicate (width - text.length) ' ')

/-- The width of the column of ids: the greatest length of an id in bytes. -/
def idWidth (r : Registry) : Nat :=
  (r.ids.map (·.utf8ByteSize)).foldl max 0

/-- The line of a project in the listing. -/
def listedLine (width : Nat) (p : Project) : String :=
  let output := (p.output?.map Path.display).getD "-"
  s!"{padded width p.id}  {padded 6 p.kind.name}  {output}"

/-- List every project. -/
def list (opened : Opened) (json : Bool) : Report :=
  let projects := opened.registry.projects
  if json then
    match projects.mapM listed? with
    | some items => .lines [(Json.Value.array items).pretty]
    | none => .failure unwritable
  else if projects = [] then
    .lines [s!"No projects found under {opened.workspace.root.display}"]
  else .lines (projects.map (listedLine (idWidth opened.registry)))

/-! ## Showing a project -/

/-- A line with a list of ids. -/
def idLine (name : String) (ids : List String) : String :=
  s!"  {name}: " ++ (if ids = [] then "none" else ", ".intercalate ids)

/-- A heading with paths below it. -/
def pathLines (name : String) (paths : List Path) : List String :=
  s!"  {name}:" :: paths.map fun path => "    " ++ path.display

/-- The lines that show a summary. -/
def summaryLines (s : Summary) : List String :=
  [s!"{s.id} ({s.kind.name})", s!"  root:    {s.root.display}"]
    ++ (s.output.map fun output => s!"  output:  {output.display}").toList
    ++ [s!"  strict:  {s.strict}",
      idLine "libs" s.libs,
      idLine "includes" s.includes,
      idLine "link closure" s.linkClosure,
      idLine "include closure" s.headerClosure]
    ++ pathLines "include paths" s.includePaths
    ++ pathLines "libraries" s.libraries

/-- Show a project with everything resolved. -/
def info (opened : Opened) (id : String) (json : Bool) : Report :=
  match opened.registry.describe id with
  | .error error =>
    .failure ((Failure.ofBuild error).behind s!"Failed to resolve project '{id}'")
  | .ok summary =>
    if json then
      match summary.toJson? with
      | some value => .lines [value.pretty]
      | none => .failure unwritable
    else .lines (summaryLines summary)

/-! ## Cleaning -/

/-- Clean projects up to the first that fails. -/
def cleanIds (x : BuildSetup FileSystem) :
    List String → Session FileSystem → Except Failure Unit × Session FileSystem
  | [], s => (.ok (), s)
  | id :: rest, s =>
    match (x.clean id).outcome s with
    | (.ok (), s) => cleanIds x rest s
    | (.error error, s) =>
      (.error ((Failure.ofBuild error).behind s!"Failed to clean '{id}'"), s)

/-- Clean all projects. -/
def cleanAll (x : BuildSetup FileSystem) (s : Session FileSystem) :
    Except Failure Unit × Session FileSystem :=
  match x.cleanAll.outcome s with
  | (.ok (), s) => (.ok (), s)
  | (.error error, s) =>
    (.error ((Failure.ofBuild error).behind "Failed to clean build artifacts"), s)

/-- Remove the outputs of the selected projects. -/
def clean (opened : Opened) (within : Surroundings) (selection : Selection)
    (fs : FileSystem) : Report × FileSystem :=
  let x := opened.setup within
  let (result, s) :=
    match selection with
    | .all => cleanAll x { world := fs }
    | .ids ids => cleanIds x ids { world := fs }
  let count :=
    match selection with
    | .all => opened.registry.size
    | .ids ids => ids.length
  match result with
  | .ok () => (.lines [label "Cleaned" ++ s!" {count} project(s)"], s.world)
  | .error failure => (.failure failure, s.world)

/-! ## Building -/

/-- An error with what lies behind it, in one text. -/
def chain (error : BuildError) : String :=
  ": ".intercalate (error.message :: error.causes)

/-- The report of some outcomes, with the stages reported before. -/
def outcomeLines (stages : FailedStages) : List BuildSetup.Outcome → Report
  | [] => {}
  | ⟨project, .ok ()⟩ :: rest =>
    (Report.lines [label "Built" ++ " " ++ project]).append (outcomeLines stages rest)
  | ⟨project, .error error⟩ :: rest =>
    let (stage, stages) := stages.record project error
    let line := label "Failed" ++ s!" {project} during {stage}: {chain error}"
    { outcomeLines stages rest with
      err := line :: (outcomeLines stages rest).err }

/-- The outcome is a failure. -/
def failed (outcome : BuildSetup.Outcome) : Bool :=
  match outcome.result with
  | .ok () => false
  | .error _ => true

/-- The report that closes a build. -/
def closing (stats : Stats) (failures : Nat) : Report :=
  let finished : Report := { out := [.finished stats.projectsBuilt stats.unitsCompiled] }
  if failures = 0 then finished
  else finished.append (.failure ⟨s!"{failures} project(s) failed to build", []⟩)

/-- Build the selected projects. -/
def build (opened : Opened) (within : Surroundings) (selection : Selection)
    (fs : FileSystem) : Report × FileSystem :=
  let x := opened.setup within
  let (outcomes, s) :=
    match selection with
    | .all => x.buildAll { world := fs }
    | .ids ids => x.buildEach ids { world := fs }
  let report := (outcomeLines {} outcomes).append
    (closing s.stats (outcomes.filter failed).length)
  (report, s.world)

/-- Clean the selected projects and, if that succeeds, build them. -/
def rebuild (opened : Opened) (within : Surroundings) (selection : Selection)
    (fs : FileSystem) : Report × FileSystem :=
  match opened.clean within selection fs with
  | (cleaned, fs) =>
    if cleaned.status = 0 then
      match opened.build within selection fs with
      | (built, fs) => (cleaned.append built, fs)
    else (cleaned, fs)

/-- Carry out an action on the selected projects, when all of them are registered. -/
def onSelection (opened : Opened) (selection : Selection)
    (action : FileSystem → Report × FileSystem) (fs : FileSystem) : Report × FileSystem :=
  match opened.check selection with
  | .ok () => action fs
  | .error failure => (.failure failure, fs)

/-- Carry out a command. -/
def carryOut (opened : Opened) (within : Surroundings) (command : Command)
    (fs : FileSystem) : Report × FileSystem :=
  match command with
  | .list json => (opened.list json, fs)
  | .info id json => (opened.info id json, fs)
  | .build selection => opened.onSelection selection (opened.build within selection) fs
  | .clean selection => opened.onSelection selection (opened.clean within selection) fs
  | .rebuild selection => opened.onSelection selection (opened.rebuild within selection) fs

end Opened

/-! ## Calls -/

/-- The version of the program. -/
def programVersion : String :=
  "0.2.0"

/-- The report of a call that does not go on to a command. -/
def Halt.report (texts : ArgumentTexts) : Halt → Report
  | .usage => { status := 2, err := texts.usage }
  | .version name => .lines [s!"{name} {programVersion}"]
  | .help => .lines texts.help

/-- The current directory as a path. -/
def currentDirectory (fs : FileSystem) : Path :=
  match fs.cwd with
  | [] => ⟨[slash]⟩
  | names => ⟨names.flatMap (slash :: ·)⟩

/-- A call with its arguments. -/
def run (within : Surroundings) (arguments : List String) (fs : FileSystem) :
    Report × FileSystem :=
  match parse within.env arguments with
  | .error halt => (halt.report within.texts, fs)
  | .ok call =>
    match Opened.load fs within.env (call.root.getD (currentDirectory fs)) with
    | .error failure => (.failure failure, fs)
    | .ok opened => opened.carryOut within call.command fs

end NativeBuild.CommandLine
