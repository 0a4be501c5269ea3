import NativeBuild.Proofs.Build.Script

/-!
# Calls one after another

Calls of the toolchain are carried out in order, each in the world that the calls before it
left, up to the first that fails.  Many steps of a build do no more than that: what they
leave in the trace and in the world is what such a run made and left.

Main definitions:

- `CallRun` and `Backend.run`: what comes of calls that are carried out in order.
- `callsOf`: the calls of a trace, each with the project it was made for.
- `Session.Served`: a session after a run of calls for a project.
- `BuildSetup.Serves`: an action that is a run of calls for a project.

Main results:

- Theorem `made_prefix`: a run makes its calls from the first on.
- Theorems `made_of_ok` and `made_of_failure`: it makes all of them, or those up to the one
  that fails.
- Theorems `outcome_makeDirectories`, `serves_compileUnit` and `serves_linkCall`: steps of a
  build that are runs of calls.
-/

namespace NativeBuild

/-! ## Runs -/

/-- What comes of calls that are carried out in order. -/
structure CallRun (σ : Type) where
  /-- The calls that were made; only the last of them may have failed. -/
  made : List ToolCall
  /-- The call that failed, with its error. -/
  failure : Option (ToolCall × BuildError)
  world : σ

namespace CallRun

variable {σ : Type}

/-- A run, and another one after it. -/
def andThen (first second : CallRun σ) : CallRun σ :=
  { second with made := first.made ++ second.made }

/-- The outcome of a run, with the error that the failure of a call becomes. -/
def result (run : CallRun σ) (f : ToolCall → BuildError → BuildError) : Except BuildError Unit :=
  match run.failure with
  | none => .ok ()
  | some (call, cause) => .error (f call cause)

end CallRun

namespace Backend

variable {σ : Type}

/-- Carry out calls in order, up to the first that fails. -/
def run (backend : Backend σ) : List ToolCall → σ → CallRun σ
  | [], world => ⟨[], none, world⟩
  | call :: rest, world =>
    match backend.perform call world with
    | .ok () world => { backend.run rest world with made := call :: (backend.run rest world).made }
    | .error e world => ⟨[call], some (call, e), world⟩

variable {backend : Backend σ} {first second calls : List ToolCall} {world : σ}
  {call : ToolCall} {cause : BuildError}

/-- After a call that succeeds, the others are carried out. -/
theorem run_cons_of_ok {rest : List ToolCall} {after : σ}
    (h : backend.perform call world = .ok () after) :
    backend.run (call :: rest) world =
      { backend.run rest after with made := call :: (backend.run rest after).made } := by
  rw [run, h]

/-- After a call that fails, nothing else is carried out. -/
theorem run_cons_of_error {rest : List ToolCall} {after : σ}
    (h : backend.perform call world = .error cause after) :
    backend.run (call :: rest) world = ⟨[call], some (call, cause), after⟩ := by
  rw [run, h]

/-- Without a failure, all calls are made. -/
theorem made_of_ok (h : (backend.run calls world).failure = none) :
    (backend.run calls world).made = calls := by
  induction calls generalizing world with
  | nil => rfl
  | cons call rest ih =>
      cases hcall : backend.perform call world with
      | ok _ after =>
          rw [run_cons_of_ok hcall] at h ⊢
          exact congrArg (call :: ·) (ih h)
      | error e after =>
          rw [run_cons_of_error hcall] at h
          cases h

/-- With a failure, the calls up to the one that fails are made. -/
theorem made_of_failure (h : (backend.run calls world).failure = some (call, cause)) :
    ∃ before, (backend.run calls world).made = before ++ [call] ∧ before ++ [call] <+: calls := by
  induction calls generalizing world with
  | nil => cases h
  | cons first rest ih =>
      cases hcall : backend.perform first world with
      | ok _ after =>
          rw [run_cons_of_ok hcall] at h ⊢
          obtain ⟨before, hmade, hle⟩ := ih h
          refine ⟨first :: before, congrArg (first :: ·) hmade, ?_⟩
          rw [List.cons_append]
          exact List.cons_prefix_cons.2 ⟨rfl, hle⟩
      | error e after =>
          rw [run_cons_of_error hcall] at h ⊢
          cases h
          exact ⟨[], rfl, by simp⟩

/-- A run makes its calls from the first on. -/
theorem made_prefix (backend : Backend σ) (calls : List ToolCall) (world : σ) :
    (backend.run calls world).made <+: calls := by
  cases h : (backend.run calls world).failure with
  | none => exact ⟨[], by rw [made_of_ok h, List.append_nil]⟩
  | some failed =>
      obtain ⟨before, hmade, hle⟩ := made_of_failure h
      rwa [hmade]

/-- A call that fails is one of the calls. -/
theorem mem_of_failure (h : (backend.run calls world).failure = some (call, cause)) :
    call ∈ calls := by
  obtain ⟨before, -, hle⟩ := made_of_failure h
  exact hle.subset (by simp)

/-- After calls that succeed, further calls go on in the world that they left. -/
theorem run_append_of_ok (h : (backend.run first world).failure = none) :
    backend.run (first ++ second) world =
      (backend.run first world).andThen (backend.run second (backend.run first world).world) := by
  induction first generalizing world with
  | nil => rfl
  | cons call rest ih =>
      rw [List.cons_append]
      cases hcall : backend.perform call world with
      | ok _ after =>
          rw [run_cons_of_ok hcall] at h ⊢
          rw [run_cons_of_ok hcall, ih h]
          rfl
      | error e after =>
          rw [run_cons_of_error hcall] at h
          cases h

/-- After a call that fails, no further call is made. -/
theorem run_append_of_failure {failed : ToolCall × BuildError}
    (h : (backend.run first world).failure = some failed) :
    backend.run (first ++ second) world = backend.run first world := by
  induction first generalizing world with
  | nil => cases h
  | cons call rest ih =>
      rw [List.cons_append]
      cases hcall : backend.perform call world with
      | ok _ after =>
          rw [run_cons_of_ok hcall] at h ⊢
          rw [run_cons_of_ok hcall, ih h]
      | error e after => rw [run_cons_of_error hcall, run_cons_of_error hcall]

end Backend

/-! ## Calls of a trace -/

/-- The call of an entry, with its project. -/
def TraceEntry.call? : TraceEntry → Option (String × ToolCall)
  | .call project made => some (project, made)
  | _ => none

/-- The calls of a trace, each with the project it was made for. -/
def callsOf (trace : List TraceEntry) : List (String × ToolCall) :=
  trace.filterMap TraceEntry.call?

@[simp] theorem callsOf_append (first second : List TraceEntry) :
    callsOf (first ++ second) = callsOf first ++ callsOf second :=
  List.filterMap_append

/-! ## Sessions after a run -/

/-- The second session is the first after a run of calls for a project, and after so many
units. -/
structure Session.Served {σ : Type} (id : String) (run : CallRun σ) (units : Nat)
    (s t : Session σ) : Prop where
  calls : ∃ entries, t.trace = s.trace ++ entries ∧
    callsOf entries = run.made.map fun call => (id, call)
  world : t.world = run.world
  units : t.stats.unitsCompiled = s.stats.unitsCompiled + units

namespace Session

variable {σ : Type} {id : String} {first second run : CallRun σ} {m n : Nat} {s t u : Session σ}

/-- A session after two runs is one after both. -/
theorem Served.trans (hst : Served id first m s t) (htu : Served id second n t u) :
    Served id (first.andThen second) (m + n) s u := by
  obtain ⟨before, hbefore, hfirst⟩ := hst.calls
  obtain ⟨after, hafter, hsecond⟩ := htu.calls
  refine ⟨⟨before ++ after, ?_, ?_⟩, htu.world, ?_⟩
  · rw [hafter, hbefore, List.append_assoc]
  · rw [callsOf_append, hfirst, hsecond, CallRun.andThen, List.map_append]
  · rw [htu.units, hst.units, Nat.add_assoc]

/-- Entries without calls may follow. -/
theorem Served.told (h : Served id run m s t) {entries : List TraceEntry}
    (htrace : u.trace = t.trace ++ entries) (hcalls : callsOf entries = [])
    (hworld : u.world = t.world)
    (hunits : u.stats.unitsCompiled = t.stats.unitsCompiled + n) :
    Served id run (m + n) s u := by
  obtain ⟨before, hbefore, hmade⟩ := h.calls
  refine ⟨⟨before ++ entries, ?_, ?_⟩, hworld.trans h.world, ?_⟩
  · rw [htrace, hbefore, List.append_assoc]
  · rw [callsOf_append, hmade, hcalls, List.append_nil]
  · rw [hunits, h.units, Nat.add_assoc]

/-- Entries without calls may come before. -/
theorem Served.after_told (h : Served id run m t u) {entries : List TraceEntry}
    (htrace : t.trace = s.trace ++ entries) (hcalls : callsOf entries = [])
    (hunits : t.stats.unitsCompiled = s.stats.unitsCompiled) : Served id run m s u := by
  obtain ⟨after, hafter, hmade⟩ := h.calls
  refine ⟨⟨entries ++ after, ?_, ?_⟩, h.world, ?_⟩
  · rw [hafter, htrace, List.append_assoc]
  · rw [callsOf_append, hcalls, hmade, List.nil_append]
  · rw [h.units, hunits]

end Session

namespace BuildSetup

open Build Session

variable {σ : Type} (x : BuildSetup σ)

/-! ## Actions that are runs -/

/-- The action is a run of calls for a project; the failure of a call becomes an error by the
given rule. -/
def Serves (id : String) (calls : List ToolCall) (f : ToolCall → BuildError → BuildError)
    (action : Build σ Unit) : Prop :=
  ∀ s, (action.outcome s).1 = (x.backend.run calls s.world).result f ∧
    Served id (x.backend.run calls s.world) 0 s (action.outcome s).2

variable {x} {id : String} {first second calls : List ToolCall}
  {f : ToolCall → BuildError → BuildError}

/-- A call is a run of that call. -/
theorem serves_perform (id : String) (call : ToolCall) :
    x.Serves id [call] (fun _ cause => cause) (x.perform id call) := by
  intro s
  simp only [perform, outcome, act, answer, Session.record]
  cases h : x.backend.perform call s.world with
  | ok _ after =>
      rw [Backend.run_cons_of_ok h]
      exact ⟨rfl, ⟨_, rfl, rfl⟩, rfl, rfl⟩
  | error e after =>
      rw [Backend.run_cons_of_error h]
      exact ⟨rfl, ⟨_, rfl, rfl⟩, rfl, rfl⟩

/-- A run whose error is wrapped is a run. -/
theorem serves_wrap {action : Build σ Unit} (h : x.Serves id calls f action)
    (g : BuildError → BuildError) :
    x.Serves id calls (fun call cause => g (f call cause)) (wrap g action) := by
  intro s
  obtain ⟨hresult, hserved⟩ := h s
  rw [outcome_wrap]
  refine ⟨?_, hserved⟩
  rw [hresult, CallRun.result, CallRun.result]
  cases (x.backend.run calls s.world).failure <;> rfl

/-- An action that succeeds has made all its calls. -/
theorem Serves.of_ok {action : Build σ Unit} (h : x.Serves id calls f action) {s t : Session σ}
    (houtcome : action.outcome s = (.ok (), t)) :
    (x.backend.run calls s.world).failure = none ∧
      Served id (x.backend.run calls s.world) 0 s t := by
  obtain ⟨hresult, hserved⟩ := h s
  rw [houtcome] at hresult hserved
  refine ⟨?_, hserved⟩
  cases hfailure : (x.backend.run calls s.world).failure with
  | none => rfl
  | some failed => simp [CallRun.result, hfailure] at hresult

/-- An action that fails has made its calls up to the one that failed. -/
theorem Serves.of_error {action : Build σ Unit} (h : x.Serves id calls f action)
    {s t : Session σ} {e : BuildError} (houtcome : action.outcome s = (.error e, t)) :
    ∃ call cause, (x.backend.run calls s.world).failure = some (call, cause) ∧
      e = f call cause ∧ Served id (x.backend.run calls s.world) 0 s t := by
  obtain ⟨hresult, hserved⟩ := h s
  rw [houtcome] at hresult hserved
  cases hfailure : (x.backend.run calls s.world).failure with
  | none => simp [CallRun.result, hfailure] at hresult
  | some failed =>
      obtain ⟨call, cause⟩ := failed
      rw [CallRun.result, hfailure] at hresult
      exact ⟨call, cause, rfl, Except.error.inj hresult, hserved⟩

/-- Two runs in turn are a run of the calls of both. -/
theorem serves_bind {action next : Build σ Unit} (haction : x.Serves id first f action)
    (hnext : x.Serves id second f next) :
    x.Serves id (first ++ second) f (action >>= fun _ => next) := by
  intro s
  rcases h : action.outcome s with ⟨e | _, t⟩
  · obtain ⟨call, cause, hfailure, rfl, hserved⟩ := haction.of_error h
    rw [outcome_bind_of_error h, Backend.run_append_of_failure hfailure]
    exact ⟨by rw [CallRun.result, hfailure], hserved⟩
  · obtain ⟨hfailure, hserved⟩ := haction.of_ok h
    obtain ⟨hresult, hserved'⟩ := hnext t
    rw [hserved.world] at hresult hserved'
    rw [outcome_bind_of_ok h, Backend.run_append_of_ok hfailure]
    exact ⟨hresult, hserved.trans hserved'⟩

/-- The rule for errors matters for the given calls only. -/
theorem Serves.congr {action : Build σ Unit} {g : ToolCall → BuildError → BuildError}
    (h : x.Serves id calls f action) (hsame : ∀ call ∈ calls, f call = g call) :
    x.Serves id calls g action := by
  intro s
  obtain ⟨hresult, hserved⟩ := h s
  refine ⟨?_, hserved⟩
  rw [hresult, CallRun.result, CallRun.result]
  cases hfailure : (x.backend.run calls s.world).failure with
  | none => rfl
  | some failed => simp [hsame failed.1 (Backend.mem_of_failure hfailure)]

variable (x)

/-- The calls that make the output directories of a project. -/
def directoryCalls (p : Project) : List ToolCall :=
  [.makeDirectory p.objDir, .makeDirectory p.binDir]

/-- Making the directories of a project is a run of two calls, and nothing else is done. -/
theorem outcome_makeDirectories (p : Project) (s : Session σ) :
    (x.makeDirectories p).outcome s =
      ((x.backend.run (directoryCalls p) s.world).result fun _ cause => cause, { s with
        trace := s.trace ++ (x.backend.run (directoryCalls p) s.world).made.map (.call p.id)
        world := (x.backend.run (directoryCalls p) s.world).world }) := by
  simp only [directoryCalls, makeDirectories, perform, outcome, bind, EStateM.bind, act, answer,
    Session.record]
  cases hobj : x.backend.perform (.makeDirectory p.objDir) s.world with
  | error e after =>
      rw [Backend.run_cons_of_error hobj]
      rfl
  | ok _ middle =>
      rw [Backend.run_cons_of_ok hobj]
      cases hbin : x.backend.perform (.makeDirectory p.binDir) middle with
      | error e after =>
          rw [Backend.run_cons_of_error hbin]
          simp [hbin, CallRun.result]
      | ok _ after =>
          rw [Backend.run_cons_of_ok hbin]
          simp [hbin, Backend.run, CallRun.result]

/-- Compiling a unit is a run of its calls. -/
theorem serves_compileUnit (p : Project) (plan : ArtifactPlan) (unit : CompilationUnit) :
    x.Serves p.id (unitCalls p plan unit) (fun _ cause => cause) (x.compileUnit p plan unit) := by
  unfold compileUnit unitCalls
  cases unit.object.parent? with
  | none => exact serves_perform p.id _
  | some directory => exact serves_bind (serves_perform p.id _) (serves_perform p.id _)

end BuildSetup

/-! ## Linking -/

/-- The step of linking that a call belongs to. -/
def ToolCall.linkStage? : ToolCall → Option LinkStage
  | .archive .. => some .archive
  | .link .. => some .link
  | .disassemble .. => some .disassemble
  | _ => none

/-- What the failure of a call of linking becomes. -/
def linkError (p : Project) (call : ToolCall) (cause : BuildError) : BuildError :=
  match call.linkStage? with
  | some stage => .linkFailure p.id stage cause
  | none => cause

/-- The calls for a unit are no part of linking. -/
theorem linkStage?_of_mem_unitCalls {p : Project} {plan : ArtifactPlan} {unit : CompilationUnit}
    {call : ToolCall} (h : call ∈ unitCalls p plan unit) : call.linkStage? = none := by
  have hown : (BuildSetup.unitCall p plan unit).linkStage? = none := by
    unfold BuildSetup.unitCall
    cases unit.language <;> rfl
  unfold unitCalls at h
  split at h
  · rcases List.mem_cons.1 h with rfl | h
    · rfl
    · rwa [List.mem_singleton.1 h]
  · rwa [List.mem_singleton.1 h]

namespace BuildSetup

variable {σ : Type} (x : BuildSetup σ)

/-- A call of linking is a run of that call. -/
theorem serves_linkCall (p : Project) {stage : LinkStage} {call : ToolCall}
    (hstage : call.linkStage? = some stage) :
    x.Serves p.id [call] (linkError p) (x.linkCall p stage call) := by
  refine (serves_wrap (serves_perform p.id call) _).congr fun other hother => ?_
  rw [List.mem_singleton.1 hother]
  funext cause
  rw [linkError, hstage]

end BuildSetup

end NativeBuild
