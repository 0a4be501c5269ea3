import NativeBuild.Error.Config
import NativeBuild.Project.Kind

/-!
# Build errors

What can go wrong from registering projects to linking them.  An error may wrap the
one that it comes from.

Main definitions:

- `BuildError`: one error.
- `BuildError.message`, `BuildError.stage` and `BuildError.causes`: its wording, the
  stage it belongs to and the wordings of what lies behind it.
- `BuildError.innermost`: the error below the failures of dependencies.
-/

namespace NativeBuild

/-- The steps of linking that may fail. -/
inductive LinkStage where
  | archive
  | link
  | disassemble
deriving DecidableEq, Repr

/-- The name of a step of linking. -/
def LinkStage.name : LinkStage → String
  | .archive => "archive"
  | .link => "link"
  | .disassemble => "disassemble"

/-- What went wrong in a build. -/
inductive BuildError where
  | invalidProject (project reason : String)
  | duplicateProject (project : String) (first second : Path)
  | projectNotFound (project : String)
  | unresolvedDependency (project dependency : String)
  /-- A cycle of link dependencies; its first id is also its last. -/
  | cyclicDependency (cycle : List String)
  | dependencyFailed (project dependency : String) (source : BuildError)
  | previouslyFailed (project : String)
  | compileFailure (project : String) (unit : Path) (attempted total : Nat)
      (source : BuildError)
  | linkFailure (project : String) (stage : LinkStage) (source : BuildError)
  | unsupportedKind (project : String) (kind : ProjectKind)
  /-- A tool ended with a status other than zero, or by a signal. -/
  | toolFailed (tool : String) (status : Option Int) (stderr : String)
  /-- A tool could not be started. -/
  | toolSpawn (tool : String) (fault : Fault)
  /-- A file operation failed at a path. -/
  | fileFault (path : Path) (fault : Fault)
  /-- A walk met a directory that it cannot read. -/
  | walkFault (stop : WalkFault)
  /-- A file operation failed. -/
  | systemFault (fault : Fault)
  | config (error : ConfigError)
deriving DecidableEq, Repr

namespace BuildError

/-- How a tool ended. -/
def exitStatus : Option Int → String
  | some code => s!"status {code}"
  | none => "no status (terminated by signal)"

/-- The wording of an error, without what lies behind it. -/
def message : BuildError → String
  | .invalidProject project reason => s!"Invalid project definition '{project}': {reason}"
  | .duplicateProject project first second =>
    s!"Project '{project}' is defined twice: {first.display} and {second.display}"
  | .projectNotFound project => s!"Project not found: {project}"
  | .unresolvedDependency project dependency =>
    s!"Project '{project}' depends on unknown project '{dependency}'"
  | .cyclicDependency cycle =>
    "Circular dependency detected: " ++ " -> ".intercalate cycle
  | .dependencyFailed project dependency _ =>
    s!"Project '{project}' cannot be built: dependency '{dependency}' failed"
  | .previouslyFailed project => s!"Project '{project}' already failed during this run"
  | .compileFailure project unit attempted total _ =>
    s!"Compilation failed for '{project}' at {unit.display} "
      ++ s!"({attempted} of {total} units attempted)"
  | .linkFailure project stage _ => s!"Linking failed for '{project}' during {stage.name}"
  | .unsupportedKind project kind =>
    s!"Project '{project}' has kind '{kind.name}', which cannot be linked yet"
  | .toolFailed tool status stderr => s!"{tool} exited with {exitStatus status}: {stderr}"
  | .toolSpawn tool fault => s!"Failed to run {tool}: {fault.message}"
  | .fileFault path fault => s!"I/O error at {path.display}: {fault.message}"
  | .walkFault stop => s!"I/O error at {stop.path.display}: {stop.message}"
  | .systemFault fault => s!"I/O error: {fault.message}"
  | .config error => s!"Configuration error: {error.message}"

/-- The name of the stage that an error belongs to, for reports. -/
def stage : BuildError → String
  | .invalidProject .. | .duplicateProject .. | .config _ => "configuration"
  | .projectNotFound _ | .unresolvedDependency .. | .cyclicDependency _ =>
    "dependency resolution"
  | .dependencyFailed .. | .previouslyFailed _ => "dependencies"
  | .compileFailure .. => "compile"
  | .linkFailure .. | .unsupportedKind .. => "link"
  | .toolFailed .. | .toolSpawn .. => "toolchain"
  | .fileFault .. | .walkFault _ | .systemFault _ => "filesystem"

/-- The wordings of what lies behind an error, outermost first. -/
def causes : BuildError → List String
  | .dependencyFailed _ _ source => source.message :: source.causes
  | .compileFailure _ _ _ _ source => source.message :: source.causes
  | .linkFailure _ _ source => source.message :: source.causes
  | .systemFault fault => [fault.message]
  | .config error => error.message :: (error.cause?.map Fault.message).toList
  | _ => []

/-- The error below the failures of dependencies. -/
def innermost : BuildError → BuildError
  | .dependencyFailed _ _ source => source.innermost
  | error => error

end BuildError

end NativeBuild
