import NativeBuild.Build.Run

/-!
# Cleaning projects

Cleaning a project removes its two output directories and forgets its state; the
counters stay.  Cleaning everything stops at the first project that fails.

Main definitions:

- `BuildSetup.clean` and `BuildSetup.cleanAll`.
- `Request` and `BuildSetup.serve`: the requests of a session, and a run of several.
-/

namespace NativeBuild

namespace BuildSetup

open Build

variable {σ : Type}

/-- Remove the outputs of a project and forget its state. -/
def clean (x : BuildSetup σ) (id : String) : Build σ Unit := do
  let p ← give (x.registry.require id)
  x.perform p.id (.removeDirectoryTree p.objDir)
  x.perform p.id (.removeDirectoryTree p.binDir)
  change (·.forget p.id)

/-- Clean projects one after another, up to the first that fails. -/
def cleanEach (x : BuildSetup σ) : List String → Build σ Unit
  | [] => pure ()
  | id :: rest => do
    x.clean id
    x.cleanEach rest

/-- Clean every project, by id. -/
def cleanAll (x : BuildSetup σ) : Build σ Unit :=
  x.cleanEach x.registry.ids

end BuildSetup

/-! ## Requests -/

/-- A request to a session. -/
inductive Request where
  | build (id : String)
  | buildAll
  | clean (id : String)
  | cleanAll
deriving DecidableEq, Repr

/-- The answer to a request. -/
inductive Reply where
  /-- The request as a whole succeeded or failed. -/
  | single (result : Except BuildError Unit)
  /-- The outcome of each project. -/
  | each (outcomes : List BuildSetup.Outcome)

namespace BuildSetup

variable {σ : Type}

/-- Serve one request. -/
def serve (x : BuildSetup σ) (request : Request) (s : Session σ) : Reply × Session σ :=
  match request with
  | .build id =>
    let (result, s) := (x.build id).outcome s
    (.single result, s)
  | .buildAll =>
    let (outcomes, s) := x.buildAll s
    (.each outcomes, s)
  | .clean id =>
    let (result, s) := (x.clean id).outcome s
    (.single result, s)
  | .cleanAll =>
    let (result, s) := x.cleanAll.outcome s
    (.single result, s)

/-- Serve requests one after another. -/
def serveAll (x : BuildSetup σ) : List Request → Session σ → List Reply × Session σ
  | [], s => ([], s)
  | request :: rest, s =>
    let (reply, s) := x.serve request s
    let (replies, s) := x.serveAll rest s
    (reply :: replies, s)

end BuildSetup

end NativeBuild
