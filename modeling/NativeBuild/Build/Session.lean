import NativeBuild.Toolchain.Call

/-!
# Build sessions

What a build remembers between requests: the state of each project, the counters, and a
trace of everything it did.

Main definitions:

- `BuildState`, `Stats` and `Event`: the state of a project, the counters and the news
  that observers are told.
- `TraceEntry`: one thing that was done, with the project it was done for.
- `Session`: all of it, together with the world of the backend.
- `Build`: an action on a session; the session survives its failure.

The trace holds more than the calls and the news: the marks `entered` and `left` show how
builds nest, `reused` shows that a project needed no work, and `cleaned` that it was
forgotten.

Main results:

- Theorems `outcome_bind_of_ok` and `outcome_bind_of_error`: what a sequence of actions
  does, by the outcome of the first.
-/

namespace NativeBuild

/-- The state of a project in a session. -/
inductive BuildState where
  | notBuilt
  | built
  | failed
deriving DecidableEq, Repr, Inhabited

/-- The name of a state. -/
def BuildState.name : BuildState → String
  | .notBuilt => "NotBuilt"
  | .built => "Built"
  | .failed => "Failed"

/-- The counters of a session. -/
structure Stats where
  /-- Projects that were finished with success. -/
  projectsBuilt : Nat := 0
  /-- Projects that were finished with failure. -/
  projectsFailed : Nat := 0
  /-- Units that became objects. -/
  unitsCompiled : Nat := 0
deriving DecidableEq, Repr, Inhabited

/-- What observers are told. -/
inductive Event where
  /-- The units of a project are about to be compiled. -/
  | started (project : String) (total : Nat)
  /-- One more unit of a project is done. -/
  | unitFinished (project : String) (done total : Nat)
  /-- A project is done. -/
  | finished (project : String) (success : Bool)
deriving DecidableEq, Repr

/-- One thing that was done, with the project it was done for. -/
inductive TraceEntry where
  /-- The building of a project begins. -/
  | entered (project : String)
  /-- The building of a project ends. -/
  | left (project : String)
  | call (project : String) (call : ToolCall)
  | generate (project : String)
  | scan (project : String)
  | event (event : Event)
  /-- A project was found to be built, and nothing was left to do. -/
  | reused (project : String)
  /-- The outputs of a project are gone and its state is forgotten. -/
  | cleaned (project : String)
deriving DecidableEq, Repr

/-- What is remembered between requests, and the world of the backend. -/
structure Session (σ : Type) where
  states : String → BuildState := fun _ => .notBuilt
  stats : Stats := {}
  trace : List TraceEntry := []
  world : σ

/-- An action on a session. -/
abbrev Build (σ : Type) (α : Type) := EStateM BuildError (Session σ) α

namespace Session

variable {σ : Type}

/-! ## Changing a session -/

/-- The session with one more thing done. -/
def record (s : Session σ) (entry : TraceEntry) : Session σ :=
  { s with trace := s.trace ++ [entry] }

/-- The session with another state of a project. -/
def setState (s : Session σ) (id : String) (state : BuildState) : Session σ :=
  { s with states := fun other => if other = id then state else s.states other }

/-- The session after one more unit of a project. -/
def unitDone (s : Session σ) (id : String) (done total : Nat) : Session σ :=
  { s with
    stats := { s.stats with unitsCompiled := s.stats.unitsCompiled + 1 }
    trace := s.trace ++ [.event (.unitFinished id done total)] }

/-- The session after a project that was built. -/
def succeed (s : Session σ) (id : String) : Session σ :=
  { s with
    stats := { s.stats with projectsBuilt := s.stats.projectsBuilt + 1 }
    trace := s.trace ++ [.event (.finished id true)] }

/-- The session after a project that failed. -/
def fail (s : Session σ) (id : String) : Session σ :=
  { s.setState id .failed with
    stats := { s.stats with projectsFailed := s.stats.projectsFailed + 1 }
    trace := s.trace ++ [.event (.finished id false)] }

/-- The session after a project whose outputs were removed. -/
def forget (s : Session σ) (id : String) : Session σ :=
  { s.setState id .notBuilt with trace := s.trace ++ [.cleaned id] }

@[simp] theorem states_setState_same (s : Session σ) (id : String) (state : BuildState) :
    (s.setState id state).states id = state := by
  simp [setState]

@[simp] theorem states_setState_other (s : Session σ) {id other : String} (state : BuildState)
    (h : other ≠ id) : (s.setState id state).states other = s.states other := by
  simp [setState, h]

@[simp] theorem states_record (s : Session σ) (entry : TraceEntry) :
    (s.record entry).states = s.states := rfl

@[simp] theorem states_unitDone (s : Session σ) (id : String) (done total : Nat) :
    (s.unitDone id done total).states = s.states := rfl

@[simp] theorem states_succeed (s : Session σ) (id : String) :
    (s.succeed id).states = s.states := rfl

@[simp] theorem states_fail (s : Session σ) (id : String) :
    (s.fail id).states = (s.setState id .failed).states := rfl

@[simp] theorem states_forget (s : Session σ) (id : String) :
    (s.forget id).states = (s.setState id .notBuilt).states := rfl

@[simp] theorem trace_record (s : Session σ) (entry : TraceEntry) :
    (s.record entry).trace = s.trace ++ [entry] := rfl

@[simp] theorem trace_setState (s : Session σ) (id : String) (state : BuildState) :
    (s.setState id state).trace = s.trace := rfl

@[simp] theorem trace_unitDone (s : Session σ) (id : String) (done total : Nat) :
    (s.unitDone id done total).trace = s.trace ++ [.event (.unitFinished id done total)] := rfl

@[simp] theorem trace_succeed (s : Session σ) (id : String) :
    (s.succeed id).trace = s.trace ++ [.event (.finished id true)] := rfl

@[simp] theorem trace_fail (s : Session σ) (id : String) :
    (s.fail id).trace = s.trace ++ [.event (.finished id false)] := rfl

@[simp] theorem trace_forget (s : Session σ) (id : String) :
    (s.forget id).trace = s.trace ++ [.cleaned id] := rfl

@[simp] theorem stats_record (s : Session σ) (entry : TraceEntry) :
    (s.record entry).stats = s.stats := rfl

@[simp] theorem stats_setState (s : Session σ) (id : String) (state : BuildState) :
    (s.setState id state).stats = s.stats := rfl

end Session

namespace Build

variable {σ α β : Type}

/-! ## Basic actions -/

/-- Change the session. -/
def change (f : Session σ → Session σ) : Build σ Unit := fun s => .ok () (f s)

/-- Give a value, or fail with an error. -/
def give (result : Except BuildError α) : Build σ α := fun s =>
  match result with
  | .ok a => .ok a s
  | .error e => .error e s

/-- Let the backend act on its world. -/
def answer (action : EStateM BuildError σ α) : Build σ α := fun s =>
  match action s.world with
  | .ok a world => .ok a { s with world }
  | .error e world => .error e { s with world }

/-- Record what is done and let the backend do it. -/
def act (entry : TraceEntry) (action : EStateM BuildError σ α) : Build σ α := fun s =>
  answer action (s.record entry)

/-- Run an action and wrap the error that it may fail with. -/
def wrap (f : BuildError → BuildError) (action : Build σ α) : Build σ α := fun s =>
  match action s with
  | .ok a s => .ok a s
  | .error e s => .error (f e) s

/-- Run an action that builds a project, between its two marks in the trace. -/
def bracket (project : String) (action : Build σ α) : Build σ α := fun s =>
  match action (s.record (.entered project)) with
  | .ok a s => .ok a (s.record (.left project))
  | .error e s => .error e (s.record (.left project))

/-- Run an action and keep its outcome as a value. -/
def outcome (action : Build σ α) (s : Session σ) : Except BuildError α × Session σ :=
  match action s with
  | .ok a s => (.ok a, s)
  | .error e s => (.error e, s)

/-! ## Outcomes of actions -/

@[simp] theorem outcome_pure (a : α) (s : Session σ) :
    (pure a : Build σ α).outcome s = (.ok a, s) := rfl

@[simp] theorem outcome_throw (e : BuildError) (s : Session σ) :
    (throw e : Build σ α).outcome s = (.error e, s) := rfl

@[simp] theorem outcome_get (s : Session σ) : (get : Build σ _).outcome s = (.ok s, s) := rfl

@[simp] theorem outcome_change (f : Session σ → Session σ) (s : Session σ) :
    (change f).outcome s = (.ok (), f s) := rfl

@[simp] theorem outcome_give (result : Except BuildError α) (s : Session σ) :
    (give result : Build σ α).outcome s = (result, s) := by
  cases result <;> rfl

/-- An action that succeeds hands its value and its session on. -/
theorem outcome_bind_of_ok {action : Build σ α} {next : α → Build σ β} {s t : Session σ} {a : α}
    (h : action.outcome s = (.ok a, t)) :
    (action >>= next).outcome s = (next a).outcome t := by
  simp only [outcome, bind, EStateM.bind] at h ⊢
  cases hs : action s with
  | ok value after =>
      rw [hs] at h
      cases h
      rfl
  | error e after =>
      rw [hs] at h
      cases h

/-- An action that fails ends what it is part of. -/
theorem outcome_bind_of_error {action : Build σ α} {next : α → Build σ β} {s t : Session σ}
    {e : BuildError} (h : action.outcome s = (.error e, t)) :
    (action >>= next).outcome s = (.error e, t) := by
  simp only [outcome, bind, EStateM.bind] at h ⊢
  cases hs : action s with
  | ok value after =>
      rw [hs] at h
      cases h
  | error e after =>
      rw [hs] at h
      cases h
      rfl

/-- A sequence of actions succeeds by the success of both. -/
theorem outcome_bind_eq_ok {action : Build σ α} {next : α → Build σ β} {s u : Session σ} {b : β}
    (h : (action >>= next).outcome s = (.ok b, u)) :
    ∃ a t, action.outcome s = (.ok a, t) ∧ (next a).outcome t = (.ok b, u) := by
  rcases haction : action.outcome s with ⟨e | a, t⟩
  · rw [outcome_bind_of_error haction] at h
    cases h
  · rw [outcome_bind_of_ok haction] at h
    exact ⟨a, t, rfl, h⟩

/-- Wrapping changes the error and nothing else. -/
theorem outcome_wrap (f : BuildError → BuildError) (action : Build σ α) (s : Session σ) :
    (wrap f action).outcome s = ((action.outcome s).1.mapError f, (action.outcome s).2) := by
  simp only [outcome, wrap]
  cases action s <;> rfl

/-- What is done between two marks is done after the first and before the second. -/
theorem outcome_bracket (project : String) (action : Build σ α) (s : Session σ) :
    (bracket project action).outcome s =
      ((action.outcome (s.record (.entered project))).1,
        (action.outcome (s.record (.entered project))).2.record (.left project)) := by
  simp only [outcome, bracket]
  cases action (s.record (.entered project)) <;> rfl

/-- What the backend does is recorded whether it succeeds or fails. -/
theorem trace_outcome_act (entry : TraceEntry) (action : EStateM BuildError σ α)
    (s : Session σ) : ((act entry action).outcome s).2.trace = s.trace ++ [entry] := by
  simp only [outcome, act, answer]
  cases action (s.record entry).world <;> simp

/-- The backend knows nothing of the states of projects. -/
theorem states_outcome_act (entry : TraceEntry) (action : EStateM BuildError σ α)
    (s : Session σ) : ((act entry action).outcome s).2.states = s.states := by
  simp only [outcome, act, answer]
  cases action (s.record entry).world <;> simp

/-- The backend knows nothing of the counters. -/
theorem stats_outcome_act (entry : TraceEntry) (action : EStateM BuildError σ α)
    (s : Session σ) : ((act entry action).outcome s).2.stats = s.stats := by
  simp only [outcome, act, answer]
  cases action (s.record entry).world <;> simp

end Build

end NativeBuild
