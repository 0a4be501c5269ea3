import NativeBuild.Proofs.Build.Steady
import NativeBuild.Proofs.Dependency.Errors
import NativeBuild.Toolchain.Command

/-!
# Errors of builds

Where the errors of a build come from: from the search for what a project depends on, or from
the tools and the files.  Once a project can be planned, what it still fails with lies on a
tool or on a file, or it has a kind that cannot be linked.

Main definitions:

- `BuildError.layers`: an error with those behind it.
- `BuildError.isResolution` and `BuildError.isExternal`: the errors of a search, and those of
  tools and files.
- `BuildError.isOwn`: the errors of a project itself, which no dependency passes on.
- `FailsWith`: an action all of whose errors have a property.
- `Backend.External`: a backend that fails with errors of tools and files only.

Main results:

- Theorem `external_commandBackend`: the toolchain of programs is such a backend.
- Theorem `failsWith_produce_own`: a project is produced or fails with an error of its own.
- Theorem `failsWith_produce`: a project that can be planned fails past all searches.
-/

namespace NativeBuild

/-! ## Kinds of errors -/

namespace BuildError

/-- The error and those behind it, outermost first. -/
def layers : BuildError → List BuildError
  | .dependencyFailed project dependency source =>
    .dependencyFailed project dependency source :: source.layers
  | .compileFailure project unit attempted total source =>
    .compileFailure project unit attempted total source :: source.layers
  | .linkFailure project stage source => .linkFailure project stage source :: source.layers
  | error => [error]

/-- The error says that a project, or what it depends on, cannot be built as it is defined. -/
def isResolution : BuildError → Bool
  | .invalidProject .. | .projectNotFound _ | .unresolvedDependency .. | .cyclicDependency _ =>
    true
  | _ => false

/-- The error comes from a tool or from the files. -/
def isExternal : BuildError → Bool
  | .toolFailed .. | .toolSpawn .. | .fileFault .. | .walkFault _ | .systemFault _ => true
  | _ => false

/-- The error is one of the project that it is reported for: it neither passes on the failure
of a dependency nor points back to an earlier call. -/
def isOwn : BuildError → Bool
  | .dependencyFailed .. | .previouslyFailed _ => false
  | _ => true

/-- An error of a search is one of the project itself. -/
theorem isOwn_of_isResolution {e : BuildError} (h : e.isResolution = true) : e.isOwn = true := by
  cases e <;> simp [isResolution, isOwn] at h ⊢

/-- An error of a tool or a file is one of the project itself. -/
theorem isOwn_of_isExternal {e : BuildError} (h : e.isExternal = true) : e.isOwn = true := by
  cases e <;> simp [isExternal, isOwn] at h ⊢

/-- Neither the error nor any behind it comes from a search. -/
def PastResolution (e : BuildError) : Prop :=
  ∀ cause ∈ e.layers, cause.isResolution = false

/-- An error of a tool or a file has nothing of a search behind it. -/
theorem pastResolution_of_isExternal {e : BuildError} (h : e.isExternal = true) :
    e.PastResolution := by
  cases e <;> simp [isExternal, PastResolution, layers, isResolution] at h ⊢

variable {e : BuildError} (h : e.PastResolution)

include h

/-- What fails past all searches does so for the project that needs it, too. -/
theorem PastResolution.dependencyFailed (project dependency : String) :
    (BuildError.dependencyFailed project dependency e).PastResolution :=
  List.forall_mem_cons.2 ⟨rfl, h⟩

/-- A unit whose compiling fails past all searches fails its project past all searches. -/
theorem PastResolution.compileFailure (project : String) (unit : Path) (attempted total : Nat) :
    (BuildError.compileFailure project unit attempted total e).PastResolution :=
  List.forall_mem_cons.2 ⟨rfl, h⟩

/-- A step of linking that fails past all searches fails its project past all searches. -/
theorem PastResolution.linkFailure (project : String) (stage : LinkStage) :
    (BuildError.linkFailure project stage e).PastResolution :=
  List.forall_mem_cons.2 ⟨rfl, h⟩

end BuildError

/-! ## Errors of searches -/

namespace Registry

variable {r : Registry} {id : String} {e : BuildError}

/-- Whatever a search complains of is an error of resolution. -/
theorem isResolution_of_explained {follow : Project → List String}
    (h : r.Explained follow id e) : e.isResolution = true := by
  cases e <;> first | rfl | cases h

/-- A link closure fails by an error of a search. -/
theorem isResolution_of_linkClosure (h : r.linkClosure id = .error e) :
    e.isResolution = true := by
  obtain ⟨found, hextend⟩ := linkClosure_eq_error_iff.1 h
  exact isResolution_of_explained (explained_of_extendLink hextend)

/-- A header closure fails by an error of a search. -/
theorem isResolution_of_headerClosure (h : r.headerClosure id = .error e) :
    e.isResolution = true := by
  obtain ⟨found, hextend⟩ := headerClosure_eq_error_iff.1 h
  exact isResolution_of_explained (explained_of_extendHeaders hextend)

/-- A plan fails by the search for one of the closures. -/
theorem isResolution_of_planWith {p : Project} {output : Path} {sources : List Path}
    (h : r.planWith p output sources = .error e) : e.isResolution = true := by
  cases hlinks : r.linkClosure p.id with
  | error other =>
      simp only [planWith, includePaths, hlinks, bind, Except.bind] at h
      cases h
      exact isResolution_of_linkClosure hlinks
  | ok links =>
      cases hheaders : r.headerClosure p.id with
      | error other =>
          simp only [planWith, includePaths, hlinks, hheaders, bind, Except.bind] at h
          cases h
          exact isResolution_of_headerClosure hheaders
      | ok headers =>
          obtain ⟨plan, hplan⟩ := exists_planWith hlinks hheaders output sources
          cases h.symm.trans hplan

end Registry

/-! ## Errors of actions -/

/-- Whatever error the action fails with has the property. -/
def FailsWith {τ α : Type} (φ : BuildError → Prop) (action : EStateM BuildError τ α) : Prop :=
  ∀ world e, resultOf action world = .error e → φ e

section Actions

variable {τ σ α β : Type} {φ ψ : BuildError → Prop}

/-- What only gives a value has no errors. -/
theorem failsWith_pure (a : α) : FailsWith φ (pure a : EStateM BuildError τ α) := by
  intro world e h
  cases h

/-- What only fails has the error that it fails with. -/
theorem failsWith_throw {e : BuildError} (he : φ e) :
    FailsWith φ (throw e : EStateM BuildError τ α) := by
  intro world e h
  cases h
  exact he

/-- A sequence of actions has the errors of both. -/
theorem failsWith_bind {action : EStateM BuildError τ α} {next : α → EStateM BuildError τ β}
    (haction : FailsWith φ action) (hnext : ∀ a, FailsWith φ (next a)) :
    FailsWith φ (action >>= next) := by
  intro world e h
  simp only [resultOf, bind, EStateM.bind] at h
  cases hfirst : action world with
  | ok a after =>
      rw [hfirst] at h
      exact hnext a after e h
  | error other after =>
      rw [hfirst] at h
      cases h
      exact haction world e (by rw [resultOf, hfirst])

/-- A weaker property holds of the errors as well. -/
theorem FailsWith.imp {action : EStateM BuildError τ α} (h : FailsWith φ action)
    (himp : ∀ e, φ e → ψ e) : FailsWith ψ action :=
  fun world e he => himp e (h world e he)

/-- The error of an outcome is one of the errors of the action. -/
theorem FailsWith.of_outcome {action : Build σ α} {s t : Session σ} {e : BuildError}
    (h : FailsWith φ action) (houtcome : action.outcome s = (.error e, t)) : φ e := by
  refine h s e ?_
  simp only [Build.outcome] at houtcome
  cases hs : action s with
  | ok a after =>
      rw [hs] at houtcome
      cases houtcome
  | error other after =>
      rw [hs] at houtcome
      cases houtcome
      rw [resultOf, hs]

/-- Changing the session has no errors. -/
theorem failsWith_change (f : Session σ → Session σ) : FailsWith φ (Build.change f) := by
  intro s e h
  cases h

/-- A result that is given has its own error only. -/
theorem failsWith_give {result : Except BuildError α} (h : ∀ e, result = .error e → φ e) :
    FailsWith φ (Build.give result : Build σ α) := by
  intro s e he
  cases result with
  | ok a => cases he
  | error other =>
      cases he
      exact h e rfl

/-- What the backend does for a build has the errors of the backend. -/
theorem failsWith_act (entry : TraceEntry) {action : EStateM BuildError σ α}
    (h : FailsWith φ action) : FailsWith φ (Build.act entry action) := by
  intro s e he
  refine h s.world e ?_
  rw [← Build.fst_outcome_act entry action s, Build.outcome, ← he, resultOf]
  cases Build.act entry action s <;> rfl

/-- An action that is wrapped has its errors wrapped. -/
theorem failsWith_wrap {action : Build σ α} (h : FailsWith φ action)
    {f : BuildError → BuildError} (hf : ∀ e, φ e → ψ (f e)) :
    FailsWith ψ (Build.wrap f action) := by
  intro s e he
  simp only [resultOf, Build.wrap] at he
  cases hs : action s with
  | ok a after =>
      rw [hs] at he
      cases he
  | error other after =>
      rw [hs] at he
      cases he
      exact hf other (h s other (by rw [resultOf, hs]))

end Actions

/-! ## Backends that fail by themselves -/

/-- The backend fails with errors of tools and files only. -/
structure Backend.External {σ : Type} (backend : Backend σ) : Prop where
  perform : ∀ call, FailsWith (·.isExternal = true) (backend.perform call)
  generate : ∀ p, FailsWith (·.isExternal = true) (backend.generate p)
  scan : ∀ path, FailsWith (·.isExternal = true) (backend.scan path)

/-- An operation on a path fails by an error of the files. -/
theorem failsWith_atPath {α : Type} (path : Path) (operation : FileSystem.Operation α) :
    FailsWith (·.isExternal = true) (atPath path operation) := by
  intro fs e h
  simp only [resultOf, atPath, EStateM.adaptExcept] at h
  cases hresult : operation fs with
  | ok a after =>
      rw [hresult] at h
      cases h
  | error fault after =>
      rw [hresult] at h
      cases h
      rfl

/-- Running a program fails by an error of the tool. -/
theorem failsWith_run (host : Host) (invocation : Invocation) :
    FailsWith (·.isExternal = true) (host.run invocation) := by
  intro fs e h
  simp only [resultOf, Host.run] at h
  cases hstart : host.start invocation.program invocation.arguments fs with
  | error fault =>
      rw [hstart] at h
      cases h
      rfl
  | ok started =>
      rw [hstart] at h
      cases hsuccess : started.1.success with
      | true => simp [hsuccess] at h
      | false =>
          simp only [hsuccess] at h
          cases h
          rfl

/-- The toolchain of programs fails with errors of tools and files only. -/
theorem external_commandBackend (tools : ToolSettings) (host : Host) (date : String) :
    (commandBackend tools host date).External where
  perform call := by
    show FailsWith _ (tools.perform host call)
    unfold ToolSettings.perform
    cases tools.invocation? call with
    | none =>
        cases call <;> first | exact failsWith_atPath _ _ | exact failsWith_pure ()
    | some invocation =>
        refine failsWith_bind (failsWith_run host invocation) fun written => ?_
        cases call <;> first | exact failsWith_atPath _ _ | exact failsWith_pure ()
  generate p := by
    refine failsWith_bind (failsWith_bind (failsWith_atPath _ _) fun _ => ?_)
      fun _ => failsWith_pure ()
    refine failsWith_bind (fun fs e h => by cases h) fun fs => ?_
    exact failsWith_bind (failsWith_atPath _ _) fun _ =>
      failsWith_bind (failsWith_atPath _ _) fun _ =>
        failsWith_bind (failsWith_atPath _ _) fun _ => failsWith_pure _
  scan path := by
    refine failsWith_bind (fun fs e h => by cases h) fun fs => ?_
    cases discoverSources fs path with
    | ok sources => exact failsWith_pure sources
    | error stop => exact failsWith_throw rfl

/-! ## Steps of a project -/

namespace BuildSetup

open Build BuildError

variable {σ : Type} {x : BuildSetup σ}

/-- A project that is not accepted is refused by a search. -/
theorem isResolution_of_validate {p : Project} {e : BuildError}
    (h : x.validate p = .error e) : e.isResolution = true := by
  unfold validate at h
  cases hkind : p.kind.isBuildable with
  | false =>
      simp only [hkind, bind, Except.bind] at h
      cases h
      rfl
  | true =>
      cases hlinks : x.registry.linkClosure p.id with
      | error other =>
          simp only [hkind, hlinks, bind, Except.bind] at h
          cases h
          exact Registry.isResolution_of_linkClosure hlinks
      | ok links =>
          cases hheaders : x.registry.headerClosure p.id with
          | error other =>
              simp only [hkind, hlinks, hheaders, bind, Except.bind] at h
              cases h
              exact Registry.isResolution_of_headerClosure hheaders
          | ok headers => simp [hkind, hlinks, hheaders, bind, Except.bind, pure, Except.pure] at h

variable (hexternal : x.backend.External)

include hexternal

/-- A call fails by an error of the tools or the files. -/
theorem failsWith_perform (project : String) (call : ToolCall) :
    FailsWith (·.isExternal = true) (x.perform project call) :=
  failsWith_act _ (hexternal.perform call)

/-- Directories cannot be made because of the tools or the files only. -/
theorem failsWith_makeDirectories (p : Project) :
    FailsWith (·.isExternal = true) (x.makeDirectories p) :=
  failsWith_bind (failsWith_perform hexternal p.id _) fun _ => failsWith_perform hexternal p.id _

/-- Files cannot be generated because of the tools or the files only. -/
theorem failsWith_generate (p : Project) : FailsWith (·.isExternal = true) (x.generate p) :=
  failsWith_act _ (hexternal.generate p)

/-- A unit cannot be compiled because of the tools or the files only. -/
theorem failsWith_compileUnit (p : Project) (plan : ArtifactPlan) (unit : CompilationUnit) :
    FailsWith (·.isExternal = true) (x.compileUnit p plan unit) := by
  unfold compileUnit
  cases unit.object.parent? with
  | none => exact failsWith_perform hexternal p.id _
  | some directory =>
      exact failsWith_bind (failsWith_perform hexternal p.id _) fun _ =>
        failsWith_perform hexternal p.id _

/-- Units fail to be compiled by the tools and the files. -/
theorem failsWith_compileUnits {φ : BuildError → Prop} (p : Project) (plan : ArtifactPlan)
    (hφ : ∀ unit attempted total e, e.isExternal = true →
      φ (.compileFailure p.id unit attempted total e))
    (done : Nat) (units : List CompilationUnit) :
    FailsWith φ (x.compileUnits p plan done units) := by
  induction units generalizing done with
  | nil => exact failsWith_pure ()
  | cons unit rest ih =>
      have hunit : FailsWith φ
          (wrap (.compileFailure p.id unit.source (done + 1) plan.units.length)
            (x.compileUnit p plan unit)) :=
        failsWith_wrap (failsWith_compileUnit hexternal p plan unit) (hφ _ _ _)
      exact failsWith_bind hunit fun _ => failsWith_bind (failsWith_change _) fun _ => ih (done + 1)

/-- A call of linking fails as a step of linking, because of the tools or the files. -/
theorem failsWith_linkCall {φ : BuildError → Prop} {p : Project}
    (hφ : ∀ stage e, e.isExternal = true → φ (.linkFailure p.id stage e)) (stage : LinkStage)
    (call : ToolCall) : FailsWith φ (x.linkCall p stage call) :=
  failsWith_wrap (failsWith_perform hexternal p.id call) (hφ stage)

/-- A project fails to be linked by its tools, by its kind, or because it has no output. -/
theorem failsWith_link {φ : BuildError → Prop} {p : Project}
    (hφ : ∀ stage e, e.isExternal = true → φ (.linkFailure p.id stage e))
    (hkind : φ (.unsupportedKind p.id p.kind))
    (hlisting : p.disassembly? = none → φ (.invalidProject p.id "kernel has no output path"))
    (plan : ArtifactPlan) : FailsWith φ (x.link p plan) := by
  unfold link
  cases p.kind.strategy with
  | archive => exact failsWith_linkCall hexternal hφ _ _
  | application => exact failsWith_linkCall hexternal hφ _ _
  | kernelImage =>
      refine failsWith_bind (failsWith_linkCall hexternal hφ _ _) fun _ => ?_
      cases hdisassembly : p.disassembly? with
      | none => exact failsWith_throw (hlisting hdisassembly)
      | some listing => exact failsWith_linkCall hexternal hφ _ _
  | unsupported => exact failsWith_throw hkind

/-- A plan is carried out up to a failure of the tools, or of the link for lack of one. -/
theorem failsWith_carryOut {φ : BuildError → Prop} {p : Project}
    (hcompile : ∀ unit attempted total e, e.isExternal = true →
      φ (.compileFailure p.id unit attempted total e))
    (hlink : ∀ stage e, e.isExternal = true → φ (.linkFailure p.id stage e))
    (hkind : φ (.unsupportedKind p.id p.kind))
    (hlisting : p.disassembly? = none → φ (.invalidProject p.id "kernel has no output path"))
    (plan : ArtifactPlan) : FailsWith φ (do x.compile p plan; x.link p plan) := by
  refine failsWith_bind ?_ fun _ => failsWith_link hexternal hlink hkind hlisting plan
  exact failsWith_bind (failsWith_change _) fun _ =>
    failsWith_compileUnits hexternal p plan hcompile 0 plan.units

/-- Whatever a project fails with once its libraries are built, the error is its own. -/
theorem failsWith_produce_own (p : Project) : FailsWith (·.isOwn = true) (x.produce p) := by
  have hplan : FailsWith (·.isOwn = true) (x.plan p) := by
    refine failsWith_bind (failsWith_give fun e he => ?_) fun output => ?_
    · unfold Project.requireOutput at he
      split at he <;> cases he
      rfl
    · have hscan := failsWith_act (.scan p.id) (hexternal.scan p.sourceDir)
      refine failsWith_bind (hscan.imp fun _ => isOwn_of_isExternal) fun sources => ?_
      exact failsWith_give fun e he => isOwn_of_isResolution (Registry.isResolution_of_planWith he)
  refine failsWith_bind hplan fun plan => failsWith_carryOut hexternal ?_ ?_ ?_ ?_ plan
  · exact fun _ _ _ _ _ => rfl
  · exact fun _ _ _ => rfl
  · rfl
  · exact fun _ => rfl

/-- A project that can be planned fails past all searches. -/
theorem failsWith_produce {p : Project} {links headers : List String}
    (hknown : p.kind.isKnown = true) (hlinks : x.registry.linkClosure p.id = .ok links)
    (hheaders : x.registry.headerClosure p.id = .ok headers) :
    FailsWith PastResolution (x.produce p) := by
  obtain ⟨output, houtput⟩ : ∃ output, p.output? = some output :=
    Option.isSome_iff_exists.1 (p.isSome_output?.trans hknown)
  have hplan : FailsWith PastResolution (x.plan p) := by
    refine failsWith_bind (failsWith_give fun e he => ?_) fun output => ?_
    · rw [Project.requireOutput, houtput] at he
      cases he
    · have hscan := failsWith_act (.scan p.id) (hexternal.scan p.sourceDir)
      refine failsWith_bind (hscan.imp fun _ => pastResolution_of_isExternal) fun sources => ?_
      refine failsWith_give fun e he => ?_
      obtain ⟨plan, hplanned⟩ := Registry.exists_planWith hlinks hheaders output sources
      rw [hplanned] at he
      cases he
  refine failsWith_bind hplan fun plan => failsWith_carryOut hexternal ?_ ?_ ?_ ?_ plan
  · intro unit attempted total e he
    exact (pastResolution_of_isExternal he).compileFailure p.id unit attempted total
  · intro stage e he
    exact (pastResolution_of_isExternal he).linkFailure p.id stage
  · simp [PastResolution, layers, isResolution]
  · intro hdisassembly
    rw [Project.disassembly?, houtput] at hdisassembly
    cases hdisassembly

/-! ## Errors of a project itself -/

section OwnErrors

variable {p : Project} {e : BuildError} {s t : Session σ}

omit hexternal in
/-- A project that is refused fails with an error of its own. -/
theorem isOwn_of_validate (h : x.validate p = .error e) : e.isOwn = true :=
  isOwn_of_isResolution (isResolution_of_validate h)

/-- A project without directories fails with an error of its own. -/
theorem isOwn_of_makeDirectories (h : (x.makeDirectories p).outcome s = (.error e, t)) :
    e.isOwn = true :=
  isOwn_of_isExternal ((failsWith_makeDirectories hexternal p).of_outcome h)

/-- A project without generated files fails with an error of its own. -/
theorem isOwn_of_generate (h : (x.generate p).outcome s = (.error e, t)) : e.isOwn = true :=
  isOwn_of_isExternal ((failsWith_generate hexternal p).of_outcome h)

/-- A project that is not produced fails with an error of its own. -/
theorem isOwn_of_produce (h : (x.produce p).outcome s = (.error e, t)) : e.isOwn = true :=
  (failsWith_produce_own hexternal p).of_outcome h

end OwnErrors

end BuildSetup

end NativeBuild
