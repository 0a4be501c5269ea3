import NativeBuild.Build.Session

/-!
# Building projects

A build goes depth first over the linked libraries.  A project is marked as built when
its own dependencies are known to be sound and its generated files are written, before
anything it depends on is built; a failure later on overwrites the mark.  Since the
closures of the project were accepted before, no dependency leads back to it.

A project passes these steps, and the first that fails decides its error:

1. its kind is known, and so are its link closure and its header closure;
2. the generated files are written and the project is marked;
3. its libraries are built, in their order;
4. it is planned;
5. its units are compiled, in their order;
6. its objects are linked.

Main definitions:

- `BuildSetup`: the registry, the backend and the link scripts.
- `BuildSetup.build`: building one project.
- `BuildSetup.buildAll`: building all of them.
-/

namespace NativeBuild

/-- The scripts that images are linked with. -/
structure LinkScripts where
  application : Path := Path.ofString "common/userspace.ld"
  kernel : Path := Path.ofString "common/kernel.ld"
deriving DecidableEq, Repr, Inhabited

/-- The scripts of a workspace. -/
def Workspace.linkScripts (w : Workspace) : LinkScripts :=
  ⟨w.applicationScript, w.kernelScript⟩

/-- What a build works with and never changes. -/
structure BuildSetup (σ : Type) where
  registry : Registry
  backend : Backend σ
  scripts : LinkScripts := {}

namespace BuildSetup

open Build

variable {σ : Type}

/-! ## Steps of one project -/

/-- Carry out a call of the toolchain for a project. -/
def perform (x : BuildSetup σ) (project : String) (call : ToolCall) : Build σ Unit :=
  act (.call project call) (x.backend.perform call)

/-- Make the two output directories of a project. -/
def makeDirectories (x : BuildSetup σ) (p : Project) : Build σ Unit := do
  x.perform p.id (.makeDirectory p.objDir)
  x.perform p.id (.makeDirectory p.binDir)

/-- Refuse a project whose kind or whose closures cannot be built. -/
def validate (x : BuildSetup σ) (p : Project) : Except BuildError Unit := do
  if p.kind.isBuildable = false then
    .error (.invalidProject p.id "unknown project type")
  let _ ← x.registry.linkClosure p.id
  let _ ← x.registry.headerClosure p.id

/-- Write the generated files of a project. -/
def generate (x : BuildSetup σ) (p : Project) : Build σ Unit :=
  act (.generate p.id) (x.backend.generate p)

/-- Build the given libraries of a project, in order, with a way to build one. -/
def buildLibraries (buildOne : String → Build σ Unit) (p : Project) :
    List String → Build σ Unit
  | [] => pure ()
  | id :: rest => do
    wrap (.dependencyFailed p.id id) (buildOne id)
    buildLibraries buildOne p rest

/-- Plan a project, with the sources that are there. -/
def plan (x : BuildSetup σ) (p : Project) : Build σ ArtifactPlan := do
  let output ← give p.requireOutput
  let sources ← act (.scan p.id) (x.backend.scan p.sourceDir)
  give (x.registry.planWith p output sources)

/-- The call that makes an object of a unit. -/
def unitCall (p : Project) (plan : ArtifactPlan) (unit : CompilationUnit) : ToolCall :=
  match unit.language with
  | .c => .compile unit.source unit.object plan.includePaths [] p.strict
  | .assembly => .assemble unit.source unit.object

/-- Make the object of a unit. -/
def compileUnit (x : BuildSetup σ) (p : Project) (plan : ArtifactPlan)
    (unit : CompilationUnit) : Build σ Unit := do
  match unit.object.parent? with
  | some directory => x.perform p.id (.makeDirectory directory)
  | none => pure ()
  x.perform p.id (unitCall p plan unit)

/-- Make the objects of the given units, after `done` others of the plan. -/
def compileUnits (x : BuildSetup σ) (p : Project) (plan : ArtifactPlan) :
    Nat → List CompilationUnit → Build σ Unit
  | _, [] => pure ()
  | done, unit :: rest => do
    wrap (.compileFailure p.id unit.source (done + 1) plan.units.length)
      (x.compileUnit p plan unit)
    change (·.unitDone p.id (done + 1) plan.units.length)
    x.compileUnits p plan (done + 1) rest

/-- Make all objects of a plan. -/
def compile (x : BuildSetup σ) (p : Project) (plan : ArtifactPlan) : Build σ Unit := do
  change (·.record (.event (.started p.id plan.units.length)))
  x.compileUnits p plan 0 plan.units

/-- Carry out a call that is part of linking. -/
def linkCall (x : BuildSetup σ) (p : Project) (stage : LinkStage) (call : ToolCall) :
    Build σ Unit :=
  wrap (.linkFailure p.id stage) (x.perform p.id call)

/-- Make the output of a plan from its objects. -/
def link (x : BuildSetup σ) (p : Project) (plan : ArtifactPlan) : Build σ Unit :=
  match p.kind.strategy with
  | .archive => x.linkCall p .archive (.archive plan.objects plan.output)
  | .application =>
    x.linkCall p .link
      (.link plan.objects plan.libraries plan.output x.scripts.application)
  | .kernelImage => do
    x.linkCall p .link (.link plan.objects plan.libraries plan.output x.scripts.kernel)
    match p.disassembly? with
    | some listing => x.linkCall p .disassemble (.disassemble plan.output listing)
    | none => throw (.invalidProject p.id "kernel has no output path")
  | .unsupported => throw (.unsupportedKind p.id p.kind)

/-- Plan a project, make its objects and link them. -/
def produce (x : BuildSetup σ) (p : Project) : Build σ Unit := do
  let plan ← x.plan p
  x.compile p plan
  x.link p plan

/-! ## One project -/

/-- All steps of a project that was not built, with a way to build a library. -/
def runSteps (x : BuildSetup σ) (buildOne : String → Build σ Unit) (p : Project) :
    Build σ Unit := do
  give (x.validate p)
  x.generate p
  change (·.setState p.id .built)
  buildLibraries buildOne p p.libs
  x.produce p

/-- Run the steps of a project, count their outcome and tell observers. -/
def settle (id : String) (steps : Build σ Unit) : Build σ Unit := fun s =>
  match steps s with
  | .ok () s => .ok () (s.succeed id)
  | .error e s => .error e (s.fail id)

/-- Build a project unless it was built before, with a way to build a library. -/
def enter (x : BuildSetup σ) (buildOne : String → Build σ Unit) (id : String) :
    Build σ Unit := do
  let p ← give (x.registry.require id)
  x.makeDirectories p
  match (← get).states p.id with
  | .built => change (·.record (.reused p.id))
  | .failed => throw (.previouslyFailed p.id)
  | .notBuilt => settle p.id (x.runSteps buildOne p)

/-- Build a project, and its libraries to the given depth. -/
def buildWithin (x : BuildSetup σ) : Nat → String → Build σ Unit
  | 0, id => throw (.cyclicDependency [id])
  | depth + 1, id => bracket id (x.enter (x.buildWithin depth) id)

/-- Build a project, and first the libraries it links.  No chain of libraries without a
cycle is longer than the registry, so the depth is never used up. -/
def build (x : BuildSetup σ) (id : String) : Build σ Unit :=
  x.buildWithin (x.registry.size + 1) id

/-! ## Several projects -/

/-- The outcome of building one of several projects. -/
structure Outcome where
  project : String
  result : Except BuildError Unit

/-- Build projects one after another, going on after a failure. -/
def buildEach (x : BuildSetup σ) : List String → Session σ → List Outcome × Session σ
  | [], s => ([], s)
  | id :: rest, s =>
    let (result, s) := (x.build id).outcome s
    let (outcomes, s) := x.buildEach rest s
    (⟨id, result⟩ :: outcomes, s)

/-- The projects that a build of everything builds: those of a known kind, by id. -/
def targets (x : BuildSetup σ) : List String :=
  (x.registry.projects.filter (·.kind.isKnown)).map (·.id)

/-- Build every project of a known kind. -/
def buildAll (x : BuildSetup σ) (s : Session σ) : List Outcome × Session σ :=
  x.buildEach x.targets s

end BuildSetup

end NativeBuild
