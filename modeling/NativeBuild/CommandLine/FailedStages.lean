import NativeBuild.Error.Build

/-!
# Failing stages

A report names the stage in which each project failed.  A project that failed earlier
in the same run gives no stage of its own, so the stages reported so far are remembered.

Main definitions:

- `FailedStages`: the remembered stages.
- `FailedStages.stageOf`: the stage that an error belongs to, below the failures of
  dependencies.
- `FailedStages.record`: reporting one failure.
-/

namespace NativeBuild.CommandLine

/-- The stage in which each project failed, as far as it was reported. -/
structure FailedStages where
  get? : String → Option String := fun _ => none

namespace FailedStages

/-- What is said of a project that failed earlier without a report. -/
def unreported : String :=
  "an earlier dependency failure"

/-- Remember the stage of a project, unless one is remembered already. -/
def remember (stages : FailedStages) (stage : String) (project : String) : FailedStages :=
  ⟨fun other =>
    if other = project then some ((stages.get? project).getD stage) else stages.get? other⟩

/-- The stage that an error belongs to. -/
def stageOf (stages : FailedStages) : BuildError → String
  | .dependencyFailed _ _ source => stages.stageOf source
  | .previouslyFailed project => (stages.get? project).getD unreported
  | error => error.stage

/-- The dependencies that failed below an error, outermost first. -/
def failedDependencies : BuildError → List String
  | .dependencyFailed _ dependency source => dependency :: failedDependencies source
  | _ => []

/-- Report the failure of a project: its stage, remembered for the dependencies that
failed below it and for the project. -/
def record (stages : FailedStages) (project : String) (error : BuildError) :
    String × FailedStages :=
  let stage := stages.stageOf error
  (stage, (failedDependencies error ++ [project]).foldl (·.remember stage) stages)

/-- A stage is remembered for a project that has none yet, and for no other. -/
theorem get?_remember (stages : FailedStages) (stage project other : String) :
    (stages.remember stage project).get? other
      = if other = project then some ((stages.get? project).getD stage)
        else stages.get? other := rfl

end FailedStages

end NativeBuild.CommandLine
