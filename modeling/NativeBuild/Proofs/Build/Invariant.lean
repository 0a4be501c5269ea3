import NativeBuild.Proofs.Build.Advance
import NativeBuild.Proofs.Build.Requests

/-!
# Invariants of builds

What every step of a build preserves, a build preserves, and so do requests.  A property of
this kind may speak of the calls that are open and of the projects whose steps are being
taken, both innermost first: a project is opened by its call and runs from the moment at
which it is found not to be built.

Main definitions:

- `Build.Keeps`: an action that preserves a property of sessions.
- `BuildSetup.StepInvariant`: a property that every step of a build preserves.

Main results:

- Theorem `keeps_produce`: what the calls and the news of a project preserve, the production
  of it preserves.
- Theorem `StepInvariant.runs`: a build preserves it.
- Theorem `StepInvariant.build`: so does building a project from outside.
-/

namespace NativeBuild

namespace Build

variable {σ α β : Type} {I : Session σ → Prop}

/-! ## Actions that preserve a property -/

/-- The action preserves a property of sessions, whether it succeeds or fails. -/
def Keeps (I : Session σ → Prop) (action : Build σ α) : Prop :=
  ∀ s, I s → I (action.outcome s).2

/-- What an action preserves holds in the session of its outcome. -/
theorem Keeps.of_outcome {action : Build σ α} {s t : Session σ} {result : Except BuildError α}
    (h : Keeps I action) (houtcome : action.outcome s = (result, t)) (hs : I s) : I t := by
  have ht := h s hs
  rwa [houtcome] at ht

/-- Giving a value preserves everything. -/
theorem keeps_pure (a : α) : Keeps I (pure a : Build σ α) :=
  fun _ hs => hs

/-- Failing preserves everything. -/
theorem keeps_throw (e : BuildError) : Keeps I (throw e : Build σ α) :=
  fun _ hs => hs

/-- Giving a result preserves everything. -/
theorem keeps_give (result : Except BuildError α) : Keeps I (give result : Build σ α) := by
  intro s hs
  rwa [outcome_give]

/-- Wrapping errors preserves what the action does. -/
theorem keeps_wrap {action : Build σ α} (h : Keeps I action) (f : BuildError → BuildError) :
    Keeps I (wrap f action) := by
  intro s hs
  rw [outcome_wrap]
  exact h s hs

/-- A sequence of actions preserves what both do. -/
theorem keeps_bind {action : Build σ α} {next : α → Build σ β} (haction : Keeps I action)
    (hnext : ∀ a, Keeps I (next a)) : Keeps I (action >>= next) := by
  intro s hs
  have hfirst := haction s hs
  rcases h : action.outcome s with ⟨_ | a, t⟩
  · rw [outcome_bind_of_error h]
    rwa [h] at hfirst
  · rw [outcome_bind_of_ok h]
    rw [h] at hfirst
    exact hnext a t hfirst

end Build

namespace BuildSetup

open Build Session

variable {σ : Type} {x : BuildSetup σ} {p : Project} {J : Session σ → Prop}
  (hperform : ∀ call, Keeps J (x.perform p.id call))

/-! ## Actions of one project -/

include hperform

/-- What calls preserve, making the directories of a project preserves. -/
theorem keeps_makeDirectories : Keeps J (x.makeDirectories p) :=
  keeps_bind (hperform _) fun _ => hperform _

/-- What calls preserve, compiling a unit preserves. -/
theorem keeps_compileUnit (plan : ArtifactPlan) (unit : CompilationUnit) :
    Keeps J (x.compileUnit p plan unit) := by
  unfold compileUnit
  cases unit.object.parent? with
  | none => exact hperform _
  | some directory => exact keeps_bind (hperform _) fun _ => hperform _

/-- What calls and the news of units preserve, compiling units preserves. -/
theorem keeps_compileUnits
    (hunit : ∀ done total, Keeps J (change (·.unitDone p.id done total) : Build σ Unit))
    (plan : ArtifactPlan) (done : Nat) (units : List CompilationUnit) :
    Keeps J (x.compileUnits p plan done units) := by
  induction units generalizing done with
  | nil => exact keeps_pure ()
  | cons unit rest ih =>
      refine keeps_bind (keeps_wrap (keeps_compileUnit hperform plan unit) _) fun _ => ?_
      exact keeps_bind (hunit _ _) fun _ => ih (done + 1)

/-- What calls preserve, linking preserves. -/
theorem keeps_link (plan : ArtifactPlan) : Keeps J (x.link p plan) := by
  have hcall : ∀ stage call, Keeps J (x.linkCall p stage call) :=
    fun _ call => keeps_wrap (hperform call) _
  unfold link
  cases p.kind.strategy with
  | archive => exact hcall _ _
  | application => exact hcall _ _
  | kernelImage =>
      refine keeps_bind (hcall _ _) fun _ => ?_
      cases p.disassembly? with
      | none => exact keeps_throw _
      | some listing => exact hcall _ _
  | unsupported => exact keeps_throw _

/-- What the calls and the news of a project preserve, the production of it preserves. -/
theorem keeps_produce (hscan : Keeps J (act (.scan p.id) (x.backend.scan p.sourceDir)))
    (hstarted : ∀ total,
      Keeps J (change (·.record (.event (.started p.id total))) : Build σ Unit))
    (hunit : ∀ done total, Keeps J (change (·.unitDone p.id done total) : Build σ Unit)) :
    Keeps J (x.produce p) := by
  refine keeps_bind ?_ fun plan => keeps_bind ?_ fun _ => keeps_link hperform plan
  · exact keeps_bind (keeps_give _) fun _ => keeps_bind hscan fun _ => keeps_give _
  · exact keeps_bind (hstarted _) fun _ => keeps_compileUnits hperform hunit plan 0 plan.units

end BuildSetup

namespace BuildSetup

open Build Session

variable {σ : Type} {x : BuildSetup σ}

/-! ## Steps of a build -/

/-- A property of sessions, by the calls that are open and the projects that run, that every
step of a build preserves. -/
structure StepInvariant (x : BuildSetup σ)
    (I : List String → List String → Session σ → Prop) : Prop where
  entered : ∀ {opened running id s}, I opened running s → id ∉ opened →
    I (id :: opened) running (s.record (.entered id))
  left : ∀ {opened running id s}, I (id :: opened) running s →
    I opened running (s.record (.left id))
  /-- The directories of a project are made, or cannot be. -/
  directories : ∀ {opened running p s t result}, I opened running s →
    (x.makeDirectories p).outcome s = (result, t) → I opened running t
  reused : ∀ {opened running id s}, I opened running s → id ∉ running →
    s.states id = .built → I opened running (s.record (.reused id))
  /-- A project that is not built begins to run. -/
  begun : ∀ {opened running p s}, I opened running s → x.registry.get? p.id = some p →
    p.id ∉ running → s.states p.id = .notBuilt → I opened (p.id :: running) s
  generated : ∀ {opened running p s t result}, I opened running s →
    x.registry.get? p.id = some p → (x.generate p).outcome s = (result, t) → I opened running t
  marked : ∀ {opened running id s}, I opened (id :: running) s →
    I opened (id :: running) (s.setState id .built)
  /-- A project whose libraries are built is planned, compiled and linked, as far as that
  goes. -/
  produced : ∀ {opened running p s t result}, I opened (p.id :: running) s →
    x.registry.get? p.id = some p → (∀ d ∈ p.libs, s.states d = .built ∧ d ∉ p.id :: running) →
    (x.produce p).outcome s = (result, t) → I opened (p.id :: running) t
  /-- The steps of a project that ran succeed. -/
  succeeded : ∀ {opened running p s t}, I opened (p.id :: running) s →
    I opened (p.id :: running) t → x.registry.get? p.id = some p → p.id ∉ running →
    x.Runs running (.steps p) s (.ok ()) t → I opened running (t.succeed p.id)
  failed : ∀ {opened running p t}, I opened (p.id :: running) t →
    x.registry.get? p.id = some p → p.id ∉ running → I opened running (t.fail p.id)

end BuildSetup

/-- The task fits the projects that are being built: it is no call for one of them, and no
steps of a project that is not registered. -/
def BuildTask.Fits (r : Registry) (stack : List String) : BuildTask → Prop
  | .call id => id ∉ stack
  | .steps p => r.get? p.id = some p ∧ p.id ∉ stack
  | .libraries _ _ => True

namespace BuildSetup

open Build Session

variable {σ : Type} {x : BuildSetup σ} {I : List String → List String → Session σ → Prop}

/-- What every step preserves, a task that fits preserves. -/
theorem StepInvariant.runs (hI : x.StepInvariant I) {stack : List String} {task : BuildTask}
    {s t : Session σ} {result : Except BuildError Unit} (h : x.Runs stack task s result t)
    (hfits : task.Fits x.registry stack) (hs : I (task.inside stack) (task.inside stack) s) :
    I (task.inside stack) (task.inside stack) t := by
  induction h with
  | unknown hid => exact hI.left (hI.entered hs hfits)
  | blocked hp hdirs => exact hI.left (hI.directories (hI.entered hs hfits) hdirs)
  | reused hp hdirs hstate =>
      have ht := hI.directories (hI.entered hs hfits) hdirs
      exact hI.left (hI.reused ht hfits hstate)
  | refused hp hdirs hstate => exact hI.left (hI.directories (hI.entered hs hfits) hdirs)
  | succeeded hp hdirs hstate hsteps ih =>
      have ht := hI.directories (hI.entered hs hfits) hdirs
      have hu := hI.begun ht hp hfits hstate
      exact hI.left (hI.succeeded hu (ih ⟨hp, hfits⟩ hu) hp hfits hsteps)
  | failed hp hdirs hstate hsteps ih =>
      have ht := hI.directories (hI.entered hs hfits) hdirs
      have hu := ih ⟨hp, hfits⟩ (hI.begun ht hp hfits hstate)
      exact hI.left (hI.failed hu hp hfits)
  | invalid hvalid => exact hs
  | ungenerated hvalid hgen => exact hI.generated hs hfits.1 hgen
  | interrupted hvalid hgen hlibs ih =>
      exact ih trivial (hI.marked (hI.generated hs hfits.1 hgen))
  | @produced stack p s t u v result hvalid hgen hlibs hown ih =>
      have hu := ih trivial (hI.marked (hI.generated hs hfits.1 hgen))
      refine hI.produced hu hfits.1 (fun d hd => ?_) hown
      exact ⟨hlibs.advances.2 rfl d hd, hlibs.not_mem_of_ok d hd⟩
  | noLibrary => exact hs
  | nextLibrary hid hfirst hrest ihfirst ihrest => exact ihrest trivial (ihfirst hid hs)
  | lostLibrary hid hfirst ih => exact ih hid hs

/-- What every step preserves, building a project preserves. -/
theorem StepInvariant.build (hI : x.StepInvariant I) (id : String) (s : Session σ)
    (hs : I [] [] s) : I [] [] ((x.build id).outcome s).2 :=
  hI.runs (x.runs_build id s) List.not_mem_nil hs

end BuildSetup

end NativeBuild
