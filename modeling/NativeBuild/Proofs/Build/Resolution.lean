import NativeBuild.Proofs.Build.Attainable
import NativeBuild.Proofs.Build.CallRun
import NativeBuild.Proofs.Build.Calls
import NativeBuild.Proofs.Build.Errors
import NativeBuild.Proofs.Build.Nested
import NativeBuild.Summary

/-!
# Summaries and builds

A summary searches the closures of a project; a build searches them too, again when it plans
the project, and for every library it comes to.  All of these searches agree: a build
refuses what has no summary, compiles and links what has one as the summary says, and then
fails only by what the tools and the files answer.

Main definitions:

- `BuildSetup.refusal`: what the trace shows of a project that is not accepted.
- `BuildSetup.Accepted`: a task below projects that are accepted.

Main results:

- Theorem `describe_eq_error_iff`: a summary fails as the validation does.
- Theorem `build_refused_iff`: a build fails as the validation does before anything else.
- Theorem `Runs.pastResolution`: below an accepted project, no search fails.
- Theorem `describe_agrees`: summaries and builds agree.
-/

namespace NativeBuild

/-! ## Summaries -/

namespace Registry

/-- A summary holds the closures of the project, where it searches headers and the archives
it links. -/
theorem describe_eq_ok {r : Registry} {p : Project} {summary : Summary}
    (hp : r.get? p.id = some p) (h : r.describe p.id = .ok summary) :
    r.linkClosure p.id = .ok summary.linkClosure ∧
      r.headerClosure p.id = .ok summary.headerClosure ∧
      r.includePaths p = .ok summary.includePaths ∧ r.libraries p = .ok summary.libraries := by
  simp only [describe, require, hp, bind, Except.bind] at h
  cases hlinks : r.linkClosure p.id with
  | error e => simp [hlinks] at h
  | ok links =>
      cases hheaders : r.headerClosure p.id with
      | error e => simp [hlinks, hheaders] at h
      | ok headers =>
          cases hpaths : r.includePaths p with
          | error e => simp [hlinks, hheaders, hpaths] at h
          | ok paths =>
              cases hlibraries : r.libraries p with
              | error e => simp [hlinks, hheaders, hpaths, hlibraries] at h
              | ok libraries =>
                  simp only [hlinks, hheaders, hpaths, hlibraries] at h
                  cases h
                  exact ⟨rfl, rfl, rfl, rfl⟩

end Registry

namespace BuildSetup

open Build BuildError Session

variable {σ : Type} {x : BuildSetup σ} {p : Project}

/-- A summary of a project of a known kind fails as its validation does. -/
theorem describe_eq_error_iff (hp : x.registry.get? p.id = some p)
    (hknown : p.kind.isKnown = true) {e : BuildError} :
    x.registry.describe p.id = .error e ↔ x.validate p = .error e := by
  have hbuildable : p.kind.isBuildable = true := hknown
  cases hlinks : x.registry.linkClosure p.id with
  | error other =>
      simp [validate, Registry.describe, Registry.require, hp, hbuildable, hlinks, bind,
        Except.bind]
  | ok links =>
      cases hheaders : x.registry.headerClosure p.id with
      | error other =>
          simp [validate, Registry.describe, Registry.require, hp, hbuildable, hlinks, hheaders,
            bind, Except.bind]
      | ok headers =>
          -- With both closures, what else a summary looks up is found.
          obtain ⟨plan, hplan⟩ := Registry.exists_planWith hlinks hheaders p.root []
          obtain ⟨hpaths, hlibraries, -⟩ := Registry.planWith_eq_ok hplan
          simp [validate, Registry.describe, Registry.require, hp, hbuildable, hlinks, hheaders,
            hpaths, hlibraries, bind, Except.bind, pure, Except.pure]

/-! ## Refused projects -/

/-- What the trace shows of a project that is refused: its directories are made, and nothing
else is done before it is told to have failed. -/
def refusal (p : Project) : List TraceEntry :=
  [.entered p.id, .call p.id (.makeDirectory p.objDir), .call p.id (.makeDirectory p.binDir),
    .event (.finished p.id false), .left p.id]

variable {stack : List String} {s t : Session σ} {result : Except BuildError Unit}

/-- The steps of a project that is refused do nothing. -/
theorem Runs.of_invalid {e : BuildError} (h : x.Runs stack (.steps p) s result t)
    (hinvalid : x.validate p = .error e) : result = .error e ∧ t = s := by
  cases h with
  | invalid hvalid =>
      rw [hinvalid] at hvalid
      cases hvalid
      exact ⟨rfl, rfl⟩
  | ungenerated hvalid hgen => cases hinvalid.symm.trans hvalid
  | interrupted hvalid hgen hlibs => cases hinvalid.symm.trans hvalid
  | produced hvalid hgen hlibs hown => cases hinvalid.symm.trans hvalid

/-- Generating the files of a project shows in the trace. -/
theorem generate_mem_of_outcome (h : (x.generate p).outcome s = (result, t)) :
    TraceEntry.generate p.id ∈ t.trace := by
  have htrace : ((x.generate p).outcome s).2.trace = s.trace ++ [.generate p.id] :=
    trace_outcome_act _ _ s
  rw [h] at htrace
  exact htrace ▸ List.mem_append_right _ List.mem_cons_self

/-- The steps of a project that is accepted go on to its generated files. -/
theorem Runs.generate_mem (h : x.Runs stack (.steps p) s result t)
    (hvalid : x.validate p = .ok ()) : TraceEntry.generate p.id ∈ t.trace := by
  cases h with
  | invalid hinvalid => cases hinvalid.symm.trans hvalid
  | ungenerated _ hgen => exact generate_mem_of_outcome hgen
  | @interrupted _ _ _ u _ _ _ hgen hlibs =>
      have hmem : TraceEntry.generate p.id ∈ u.trace := generate_mem_of_outcome hgen
      obtain ⟨entries, htrace⟩ := hlibs.exists_entries
      exact htrace ▸ List.mem_append_left _ hmem
  | @produced _ _ _ u _ _ _ _ hgen hlibs hown =>
      have hmem : TraceEntry.generate p.id ∈ u.trace := generate_mem_of_outcome hgen
      obtain ⟨entries, htrace⟩ := hlibs.exists_entries
      obtain ⟨more, hmore, -⟩ := ((x.works_produce p).worked hown).trace
      rw [hmore, htrace]
      exact List.mem_append_left _ (List.mem_append_left _ hmem)

/-- Making directories takes no notice of the trace. -/
theorem fst_outcome_makeDirectories_record (p : Project) (s : Session σ) (entry : TraceEntry) :
    ((x.makeDirectories p).outcome (s.record entry)).1 = ((x.makeDirectories p).outcome s).1 := by
  rw [outcome_makeDirectories, outcome_makeDirectories]
  rfl

/-- Directories that are made leave the calls for them. -/
theorem trace_makeDirectories_of_ok (h : (x.makeDirectories p).outcome s = (.ok (), t)) :
    t.trace = s.trace ++ [.call p.id (.makeDirectory p.objDir),
      .call p.id (.makeDirectory p.binDir)] := by
  obtain ⟨done, -, htrace, hall⟩ := x.follows_makeDirectories p s
  rw [h] at htrace hall
  rw [htrace, hall () rfl]

/-- A call for a project that is not built takes its steps once its directories are made, and
then the project succeeds or fails. -/
theorem Runs.steps_of_made {u : Session σ} (h : x.Runs stack (.call p.id) s result t)
    (hp : x.registry.get? p.id = some p)
    (hmade : (x.makeDirectories p).outcome (s.record (.entered p.id)) = (.ok (), u))
    (hstate : u.states p.id = .notBuilt) :
    ∃ v, x.Runs stack (.steps p) u result v ∧
      ((result = .ok () ∧ t = (v.succeed p.id).record (.left p.id)) ∨
        ((∃ e, result = .error e) ∧ t = (v.fail p.id).record (.left p.id))) := by
  have hcall := h.callOutcome hp
  simp only [hmade, CallOutcome, hstate] at hcall
  obtain ⟨v, hsteps, rfl⟩ := hcall
  refine ⟨v, hsteps, ?_⟩
  cases result with
  | ok _ => exact .inl ⟨rfl, rfl⟩
  | error e => exact .inr ⟨⟨e, rfl⟩, rfl⟩

/-- From a fresh session in which its directories can be made, a build fails as the validation
does and before anything else is done, or gets past the validation. -/
theorem build_refused_iff (hp : x.registry.get? p.id = some p) {world : σ}
    (hdirs : ((x.makeDirectories p).outcome { world }).1 = .ok ()) {e : BuildError} :
    x.validate p = .error e ↔
      ((x.build p.id).outcome { world }).1 = .error e ∧
        ((x.build p.id).outcome { world }).2.trace = refusal p := by
  rw [← fst_outcome_makeDirectories_record p _ (.entered p.id)] at hdirs
  obtain ⟨made, hmade⟩ : ∃ made, (x.makeDirectories p).outcome
      (Session.record { world } (.entered p.id)) = (.ok (), made) := ⟨_, Prod.ext hdirs rfl⟩
  have htrace : made.trace = [.entered p.id, .call p.id (.makeDirectory p.objDir),
      .call p.id (.makeDirectory p.binDir)] := trace_makeDirectories_of_ok hmade
  have hstate : made.states p.id = .notBuilt := by
    rw [states_entered hmade]
  obtain ⟨after, hsteps, hend⟩ := (x.runs_build p.id { world }).steps_of_made hp hmade hstate
  constructor
  · intro hinvalid
    obtain ⟨hresult, rfl⟩ := hsteps.of_invalid hinvalid
    obtain ⟨hok, -⟩ | ⟨-, hfinal⟩ := hend
    · cases hok.symm.trans hresult
    · refine ⟨hresult, ?_⟩
      rw [hfinal, trace_record, trace_fail, htrace]
      rfl
  · rintro ⟨hresult, hrefusal⟩
    rw [hresult] at hsteps hend
    obtain ⟨hok, -⟩ | ⟨-, hfinal⟩ := hend
    · cases hok
    · rw [hfinal, trace_record, trace_fail] at hrefusal
      cases hvalid : x.validate p with
      | error other =>
          obtain ⟨hother, -⟩ := hsteps.of_invalid hvalid
          exact hother.symm
      | ok _ =>
          -- The files would have been generated.
          have hmem := List.mem_append_left [.left p.id] (List.mem_append_left
            [.event (.finished p.id false)] (hsteps.generate_mem hvalid))
          rw [hrefusal] at hmem
          simp [refusal] at hmem

/-! ## Past the validation -/

/-- The projects of the task are registered and accepted. -/
def Accepted (x : BuildSetup σ) : BuildTask → Prop
  | .call id => ∃ p, x.registry.get? id = some p ∧ x.validate p = .ok ()
  | .steps p => x.registry.get? p.id = some p ∧ x.validate p = .ok ()
  | .libraries _ ids => ∀ d ∈ ids, ∃ q, x.registry.get? d = some q ∧ x.validate q = .ok ()

/-- Whatever an accepted project reaches over libraries is accepted, although the closures of
each leave out another project. -/
theorem validate_of_reaches {d : String} (hp : x.registry.get? p.id = some p)
    (hvalid : x.validate p = .ok ()) (hd : x.registry.Reaches linkEdges p.id d) :
    ∃ q, x.registry.get? d = some q ∧ x.validate q = .ok () := by
  obtain ⟨hkind, ⟨links, hlinks⟩, hheaders⟩ := validate_eq_ok_iff.1 hvalid
  obtain ⟨q, hq, hqkind⟩ := (Registry.soundAlong_of_linkClosure hlinks).usable d hd
  obtain ⟨inner, hinner, -⟩ := Registry.linkClosure_of_reaches hlinks hd
  obtain ⟨used, hused⟩ := Registry.headerClosure_of_reaches ⟨p, hp, hkind⟩ hheaders hd.headers
  obtain rfl := Registry.id_of_get? hq
  exact ⟨q, hq, validate_eq_ok_iff.2 ⟨hqkind, ⟨inner, hinner⟩, used, hused⟩⟩

/-- The libraries of an accepted project are accepted. -/
theorem accepted_libs (hp : x.registry.get? p.id = some p) (hvalid : x.validate p = .ok ()) :
    x.Accepted (.libraries p p.libs) := by
  intro d hd
  rw [← Registry.edges_linkEdges hp] at hd
  exact validate_of_reaches hp hvalid (.step hd)

/-- A task for accepted projects fails past all searches. -/
theorem Runs.pastResolution (hexternal : x.backend.External) {task : BuildTask}
    (h : x.Runs stack task s result t) (htask : x.Accepted task) {e : BuildError}
    (he : result = .error e) : e.PastResolution := by
  induction h generalizing e with
  | unknown hid =>
      obtain ⟨p, hp, -⟩ := htask
      rw [hid] at hp
      cases hp
  | blocked hp hdirs =>
      cases he
      exact pastResolution_of_isExternal
        ((failsWith_makeDirectories hexternal _).of_outcome hdirs)
  | reused => cases he
  | refused =>
      cases he
      simp [PastResolution, layers, isResolution]
  | succeeded => cases he
  | @failed _ p _ _ _ _ hp hdirs hstate hsteps ih =>
      obtain ⟨q, hq, hvalid⟩ := htask
      rw [hp] at hq
      cases hq
      exact ih ⟨hp, hvalid⟩ he
  | invalid hinvalid => cases hinvalid.symm.trans htask.2
  | ungenerated hvalid hgen =>
      cases he
      exact pastResolution_of_isExternal ((failsWith_generate hexternal _).of_outcome hgen)
  | interrupted hvalid hgen hlibs ih => exact ih (accepted_libs htask.1 hvalid) he
  | produced hvalid hgen hlibs hown ih =>
      obtain ⟨hkind, ⟨links, hlinks⟩, headers, hheaders⟩ := validate_eq_ok_iff.1 hvalid
      rw [he] at hown
      exact (failsWith_produce hexternal hkind hlinks hheaders).of_outcome hown
  | noLibrary => cases he
  | nextLibrary hid hfirst hrest ihfirst ihrest =>
      exact ihrest (fun d hd => htask d (List.mem_cons_of_mem _ hd)) he
  | lostLibrary hid hfirst ih =>
      cases he
      exact (ih (htask _ List.mem_cons_self) rfl).dependencyFailed _ _

/-! ## Agreement -/

/-- Summaries and builds agree on every registered project of a known kind.

* The summary fails with an error if and only if a build from a fresh session, in which the
  directories of the project can be made, fails with that error before it does anything but
  make them.
* When there is a summary, a build from any session compiles the project with its header
  directories and links it with its archives, as far as it gets; and when tools and files
  fail with errors of their own only, neither the error of the build nor any behind it is
  one of a project that is invalid, unknown or part of a cycle. -/
theorem describe_agrees (x : BuildSetup σ) (p : Project) (hp : x.registry.get? p.id = some p)
    (hknown : p.kind.isKnown = true) :
    (∀ world, ((x.makeDirectories p).outcome { world }).1 = .ok () → ∀ e,
      x.registry.describe p.id = .error e ↔
        ((x.build p.id).outcome { world }).1 = .error e ∧
          ((x.build p.id).outcome { world }).2.trace = refusal p) ∧
    ∀ summary, x.registry.describe p.id = .ok summary → ∀ s,
      (∃ entries, ((x.build p.id).outcome s).2.trace = s.trace ++ entries ∧
        (∀ source object includePaths defines strict,
          .call p.id (.compile source object includePaths defines strict) ∈ entries →
            includePaths = summary.includePaths) ∧
        ∀ objects libraries output script,
          .call p.id (.link objects libraries output script) ∈ entries →
            libraries = summary.libraries) ∧
      (x.backend.External → ∀ e, ((x.build p.id).outcome s).1 = .error e →
        ∀ cause ∈ e.layers, cause.isResolution = false) := by
  refine ⟨fun world hdirs e => ?_, fun summary hsummary s => ⟨?_, fun hexternal e he => ?_⟩⟩
  · rw [describe_eq_error_iff hp hknown, build_refused_iff hp hdirs]
  · obtain ⟨-, -, hpaths, hlibraries⟩ := Registry.describe_eq_ok hp hsummary
    obtain ⟨entries, htrace, hleft⟩ := x.grown_build p.id s
    refine ⟨entries, htrace, ?_, ?_⟩
    · intro source object includePaths defines strict hmem
      obtain ⟨q, hq, hplanned⟩ := hleft _ hmem
      rw [hp] at hq
      cases hq
      exact Except.ok.inj (hplanned.symm.trans hpaths)
    · intro objects libraries output script hmem
      obtain ⟨q, hq, hplanned⟩ := hleft _ hmem
      rw [hp] at hq
      cases hq
      exact Except.ok.inj (hplanned.symm.trans hlibraries)
  · have hvalid : x.validate p = .ok () := by
      cases hvalid : x.validate p with
      | ok _ => rfl
      | error other =>
          rw [← describe_eq_error_iff hp hknown, hsummary] at hvalid
          cases hvalid
    exact (x.runs_build p.id s).pastResolution hexternal ⟨p, hp, hvalid⟩ he

end BuildSetup

/-! ## A sample -/

namespace Sample

/-- The application of the sample. -/
def shell : Project where
  id := "shell"
  kind := .application
  root := Path.ofString "shell"
  libs := ["text", "core"]

/-- The sample world in which one library cannot be generated fails by itself only. -/
theorem external_tornSetup : tornSetup.backend.External where
  perform _ _ _ h := by cases h
  generate p world e h := by
    rw [show tornSetup.backend.generate p = answering (answers.generate p) from rfl,
      resultOf_answering, answers] at h
    dsimp only at h
    split at h <;> cases h
    rfl
  scan _ _ _ h := by cases h

/-- The application has a summary; its build is not refused, and fails by the library. -/
theorem shell_described :
    (tornSetup.registry.get? shell.id = some shell ∧ shell.kind.isKnown = true ∧
      ((tornSetup.makeDirectories shell).outcome { world := () }).1 = .ok () ∧
      tornSetup.backend.External ∧
      ((tornSetup.build shell.id).outcome { world := () }).1 =
        .error (.dependencyFailed "shell" "text" (.systemFault .permissionDenied))) ∧
    (∃ summary, tornSetup.registry.describe shell.id = .ok summary) ∧
    ((tornSetup.build shell.id).outcome { world := () }).2.trace ≠ BuildSetup.refusal shell ∧
    ∀ cause ∈ BuildError.layers
      (.dependencyFailed "shell" "text" (.systemFault .permissionDenied)),
      cause.isResolution = false := by
  have hp : tornSetup.registry.get? shell.id = some shell := by rfl
  have hdirs : ((tornSetup.makeDirectories shell).outcome { world := () }).1 = .ok () := by rfl
  have hfails : ((tornSetup.build shell.id).outcome { world := () }).1 =
      .error (.dependencyFailed "shell" "text" (.systemFault .permissionDenied)) := by cbv
  obtain ⟨hrefused, hpast⟩ := BuildSetup.describe_agrees tornSetup shell hp rfl
  cases hsummary : tornSetup.registry.describe shell.id with
  | error e =>
      have hok : (tornSetup.registry.describe shell.id).isOk = true := by cbv
      rw [hsummary] at hok
      cases hok
  | ok summary =>
      refine ⟨⟨hp, rfl, hdirs, external_tornSetup, hfails⟩, ⟨summary, rfl⟩, fun htrace => ?_,
        (hpast summary hsummary { world := () }).2 external_tornSetup _ hfails⟩
      have hboth := (hrefused () hdirs _).2 ⟨hfails, htrace⟩
      rw [hsummary] at hboth
      cases hboth

end Sample

end NativeBuild
