import NativeBuild.Proofs.Build.Script
import NativeBuild.Proofs.Plan.Dependencies

/-!
# Steady backends

A backend that always gives the same answer to the same question, whatever it was asked
before.  Whether the steps of a project succeed is then a property of the project alone.

Main definitions:

- `Answers` and `Backend.Steady`: the answers, and a backend that gives them.
- `Answers.backend`: the simplest such backend.
- `Build.OkIff`: an action that succeeds, from any session, exactly on a condition.
- `BuildSetup.Produces`: the answers by which a project is scanned, compiled and linked.

Main results:

- Theorem `okIff_produce`: a project is produced exactly by such answers.
-/

namespace NativeBuild

/-! ## Answers -/

/-- The answers of a backend, each to its question alone. -/
structure Answers where
  perform : ToolCall → Except BuildError Unit
  generate : Project → Except BuildError Unit
  scan : Path → Except BuildError (List Path)

/-- The result of an action, without the world after it. -/
def resultOf {σ α : Type} (action : EStateM BuildError σ α) (world : σ) :
    Except BuildError α :=
  match action world with
  | .ok a _ => .ok a
  | .error e _ => .error e

/-- In every world, the backend gives the answers. -/
structure Backend.Steady {σ : Type} (backend : Backend σ) (answers : Answers) : Prop where
  perform : ∀ call world, resultOf (backend.perform call) world = answers.perform call
  generate : ∀ p world, resultOf (backend.generate p) world = answers.generate p
  scan : ∀ path world, resultOf (backend.scan path) world = answers.scan path

/-- An action that gives an answer and has no world. -/
def answering {α : Type} (answer : Except BuildError α) : EStateM BuildError Unit α :=
  match answer with
  | .ok a => pure a
  | .error e => throw e

/-- The result of giving an answer is the answer. -/
theorem resultOf_answering {α : Type} (answer : Except BuildError α) (world : Unit) :
    resultOf (answering answer) world = answer := by
  cases answer <;> rfl

/-- The backend that gives some answers and has no world. -/
def Answers.backend (answers : Answers) : Backend Unit where
  perform call := answering (answers.perform call)
  generate p := answering (answers.generate p)
  scan path := answering (answers.scan path)

/-- Any answers are those of a steady backend. -/
theorem Answers.steady_backend (answers : Answers) : answers.backend.Steady answers where
  perform _ := resultOf_answering _
  generate _ := resultOf_answering _
  scan _ := resultOf_answering _

namespace Build

variable {σ α β : Type}

/-- What the backend does succeeds or fails as the backend does. -/
theorem fst_outcome_act (entry : TraceEntry) (action : EStateM BuildError σ α)
    (s : Session σ) : ((act entry action).outcome s).1 = resultOf action s.world := by
  simp only [outcome, act, answer, resultOf]
  cases h : action s.world <;> simp [Session.record, h]

/-! ## Actions that succeed on a condition -/

/-- From every session, the action succeeds exactly on the condition. -/
def OkIff (action : Build σ Unit) (φ : Prop) : Prop :=
  ∀ s, (action.outcome s).1 = .ok () ↔ φ

/-- Giving a value always succeeds. -/
theorem okIff_pure : OkIff (pure () : Build σ Unit) True :=
  fun _ => iff_of_true rfl trivial

/-- Failing never succeeds. -/
theorem okIff_throw (e : BuildError) : OkIff (throw e : Build σ Unit) False := by
  intro s
  simp

/-- Changing the session always succeeds. -/
theorem okIff_change (f : Session σ → Session σ) : OkIff (change f) True :=
  fun _ => iff_of_true rfl trivial

/-- Wrapping errors does not change when an action succeeds. -/
theorem okIff_wrap {action : Build σ Unit} {φ : Prop} (h : OkIff action φ)
    (f : BuildError → BuildError) : OkIff (wrap f action) φ := by
  intro s
  rw [outcome_wrap, ← h s]
  cases (action.outcome s).1 with
  | ok _ => exact iff_of_true rfl rfl
  | error e => exact iff_of_false (fun hok => by cases hok) (fun hok => by cases hok)

/-- Two actions succeed in turn exactly when both do. -/
theorem okIff_bind {first second : Build σ Unit} {φ ψ : Prop} (hfirst : OkIff first φ)
    (hsecond : OkIff second ψ) : OkIff (do first; second) (φ ∧ ψ) := by
  intro s
  rw [← hfirst s]
  rcases h : first.outcome s with ⟨e | _, t⟩
  · rw [outcome_bind_of_error h]
    simp
  · rw [outcome_bind_of_ok h, hsecond t]
    simp

/-- The condition of an action may be put in other words. -/
theorem OkIff.congr {action : Build σ Unit} {φ ψ : Prop} (h : OkIff action φ) (hiff : φ ↔ ψ) :
    OkIff action ψ :=
  fun s => (h s).trans hiff

/-- The outcome of an action is a success exactly on its condition. -/
theorem OkIff.of_outcome {action : Build σ Unit} {φ : Prop} {s t : Session σ}
    {result : Except BuildError Unit} (h : OkIff action φ)
    (houtcome : action.outcome s = (result, t)) : result = .ok () ↔ φ := by
  rw [← h s, houtcome]

end Build

namespace BuildSetup

open Build

variable {σ : Type}

/-! ## Own steps of a project -/

/-- By the answers, the sources of a project are found, all calls for its units and for its
output succeed, and there is a way to link it. -/
def Produces (x : BuildSetup σ) (answers : Answers) (p : Project) : Prop :=
  p.kind.strategy ≠ .unsupported ∧
  ∃ sources, answers.scan p.sourceDir = .ok sources ∧
    ∀ output plan, p.output? = some output →
      x.registry.planWith p output sources = .ok plan →
      (∀ unit ∈ plan.units, ∀ call ∈ unitCalls p plan unit, answers.perform call = .ok ()) ∧
      ∀ call ∈ x.linkCalls p plan, answers.perform call = .ok ()

/-- By the answers, the own steps of a project succeed. -/
structure Succeeds (x : BuildSetup σ) (answers : Answers) (p : Project) : Prop where
  directories : answers.perform (.makeDirectory p.objDir) = .ok () ∧
    answers.perform (.makeDirectory p.binDir) = .ok ()
  generated : answers.generate p = .ok ()
  produced : x.Produces answers p

variable {x : BuildSetup σ} {answers : Answers} (hsteady : x.backend.Steady answers)

include hsteady

/-- A call succeeds exactly by its answer. -/
theorem okIff_perform (project : String) (call : ToolCall) :
    OkIff (x.perform project call) (answers.perform call = .ok ()) := by
  intro s
  rw [perform, fst_outcome_act, hsteady.perform]

/-- The directories of a project are made exactly by the answers to the two calls. -/
theorem okIff_makeDirectories (p : Project) :
    OkIff (x.makeDirectories p)
      (answers.perform (.makeDirectory p.objDir) = .ok () ∧
        answers.perform (.makeDirectory p.binDir) = .ok ()) :=
  okIff_bind (okIff_perform hsteady p.id _) (okIff_perform hsteady p.id _)

/-- The files of a project are generated exactly by the answer to it. -/
theorem okIff_generate (p : Project) :
    OkIff (x.generate p) (answers.generate p = .ok ()) := by
  intro s
  rw [generate, fst_outcome_act, hsteady.generate]

/-- A unit is compiled exactly by the answers to its calls. -/
theorem okIff_compileUnit (p : Project) (plan : ArtifactPlan) (unit : CompilationUnit) :
    OkIff (x.compileUnit p plan unit)
      (∀ call ∈ unitCalls p plan unit, answers.perform call = .ok ()) := by
  unfold compileUnit unitCalls
  cases unit.object.parent? with
  | none => exact (okIff_perform hsteady p.id _).congr (by simp)
  | some directory =>
      have hboth := okIff_bind (okIff_perform hsteady p.id (.makeDirectory directory))
        (okIff_perform hsteady p.id (unitCall p plan unit))
      exact hboth.congr (by simp)

/-- Units are compiled exactly by the answers to all their calls. -/
theorem okIff_compileUnits (p : Project) (plan : ArtifactPlan) (done : Nat)
    (units : List CompilationUnit) :
    OkIff (x.compileUnits p plan done units)
      (∀ unit ∈ units, ∀ call ∈ unitCalls p plan unit, answers.perform call = .ok ()) := by
  induction units generalizing done with
  | nil => exact okIff_pure.congr (by simp)
  | cons unit rest ih =>
      have hunit := okIff_wrap (okIff_compileUnit hsteady p plan unit)
        (.compileFailure p.id unit.source (done + 1) plan.units.length)
      have hall := okIff_bind hunit (okIff_bind
        (okIff_change (·.unitDone p.id (done + 1) plan.units.length)) (ih (done + 1)))
      exact hall.congr (by simp)

/-- A call of linking succeeds exactly by its answer. -/
theorem okIff_linkCall (p : Project) (stage : LinkStage) (call : ToolCall) :
    OkIff (x.linkCall p stage call) (answers.perform call = .ok ()) :=
  okIff_wrap (okIff_perform hsteady p.id call) _

/-- A project that has an output is linked exactly if there is a way to link it and the calls
for it succeed. -/
theorem okIff_link {p : Project} {output : Path} (houtput : p.output? = some output)
    (plan : ArtifactPlan) :
    OkIff (x.link p plan)
      (p.kind.strategy ≠ .unsupported ∧
        ∀ call ∈ x.linkCalls p plan, answers.perform call = .ok ()) := by
  unfold link linkCalls
  cases p.kind.strategy with
  | archive => exact (okIff_linkCall hsteady p _ _).congr (by simp)
  | application => exact (okIff_linkCall hsteady p _ _).congr (by simp)
  | kernelImage =>
      rw [Project.disassembly?, houtput]
      have hboth := okIff_bind
        (okIff_linkCall hsteady p .link
          (.link plan.objects plan.libraries plan.output x.scripts.kernel))
        (okIff_linkCall hsteady p .disassemble
          (.disassemble plan.output (output.withSuffix ".asm")))
      exact hboth.congr (by simp)
  | unsupported => exact (okIff_throw _).congr (by simp)

/-- A project that has an output is planned with the sources that are found. -/
theorem fst_outcome_plan {p : Project} {output : Path} (houtput : p.output? = some output)
    (s : Session σ) :
    ((x.plan p).outcome s).1 =
      (answers.scan p.sourceDir).bind (x.registry.planWith p output) := by
  unfold plan
  have hgive := outcome_give p.requireOutput s
  rw [Project.requireOutput, houtput] at hgive
  rw [Project.requireOutput, houtput, outcome_bind_of_ok hgive, ← hsteady.scan _ s.world,
    ← fst_outcome_act (.scan p.id) _ s]
  rcases hscan : (act (.scan p.id) (x.backend.scan p.sourceDir)).outcome s with ⟨e | sources, t⟩
  · rw [outcome_bind_of_error hscan]
    rfl
  · rw [outcome_bind_of_ok hscan, outcome_give]
    rfl

/-- A project that is valid is produced exactly by such answers. -/
theorem okIff_produce {p : Project} {links headers : List String}
    (hknown : p.kind.isKnown = true) (hlinks : x.registry.linkClosure p.id = .ok links)
    (hheaders : x.registry.headerClosure p.id = .ok headers) :
    OkIff (x.produce p) (x.Produces answers p) := by
  intro s
  obtain ⟨output, houtput⟩ : ∃ output, p.output? = some output :=
    Option.isSome_iff_exists.1 (p.isSome_output?.trans hknown)
  have hresult := fst_outcome_plan hsteady houtput s
  unfold produce Produces
  cases hscan : answers.scan p.sourceDir with
  | error e =>
      rw [hscan] at hresult
      rcases hplan : (x.plan p).outcome s with ⟨_ | _, t⟩
      · rw [outcome_bind_of_error hplan]
        simp
      · rw [hplan] at hresult
        cases hresult
  | ok sources =>
      obtain ⟨plan, hplanned⟩ := Registry.exists_planWith hlinks hheaders output sources
      rw [hscan, Except.bind, hplanned] at hresult
      have hplan : (x.plan p).outcome s = (.ok plan, ((x.plan p).outcome s).2) := by
        rw [← hresult]
      have hcompile := okIff_bind
        (okIff_change (·.record (.event (.started p.id plan.units.length))))
        (okIff_compileUnits hsteady p plan 0 plan.units)
      have hcarried := okIff_bind hcompile (okIff_link hsteady houtput plan)
      rw [outcome_bind_of_ok hplan]
      refine (hcarried _).trans ⟨?_, ?_⟩
      · rintro ⟨⟨-, hunits⟩, hlinkable, hcalls⟩
        refine ⟨hlinkable, sources, rfl, fun other planned hother hsame => ?_⟩
        rw [houtput] at hother
        cases hother
        rw [hplanned] at hsame
        cases hsame
        exact ⟨hunits, hcalls⟩
      · rintro ⟨hlinkable, found, hfound, hall⟩
        cases hfound
        obtain ⟨hunits, hcalls⟩ := hall output plan houtput hplanned
        exact ⟨⟨trivial, hunits⟩, hlinkable, hcalls⟩

end BuildSetup

end NativeBuild
