import NativeBuild.Proofs.Build.OwnWork

/-!
# The script of a plan

What the trace of a project shows when its plan is carried out: the news of the start, for
each unit its calls and its news, and the calls of linking.

Main definitions:

- `unitCalls`, `unitScript`, `BuildSetup.linkCalls` and `BuildSetup.script`: the script.
- `Build.Follows`: an action that goes along a script, up to its first failure.
- `BuildSetup.Found`: sources that the search for the sources of a project gave.

Main results:

- Theorems `scan_of_plan`, `exists_found_of_plan` and `outcome_plan_eq_ok`: where a plan comes
  from.
- Theorem `follows_carryOut`: a plan is carried out along its script.
-/

namespace NativeBuild

/-! ## Scripts -/

/-- The calls that make the object of a unit. -/
def unitCalls (p : Project) (plan : ArtifactPlan) (unit : CompilationUnit) : List ToolCall :=
  match unit.object.parent? with
  | some directory => [.makeDirectory directory, BuildSetup.unitCall p plan unit]
  | none => [BuildSetup.unitCall p plan unit]

/-- What the trace shows of the given units, after `done` others of the plan. -/
def unitScript (p : Project) (plan : ArtifactPlan) :
    Nat → List CompilationUnit → List TraceEntry
  | _, [] => []
  | done, unit :: rest =>
    (unitCalls p plan unit).map (.call p.id) ++
      .event (.unitFinished p.id (done + 1) plan.units.length) ::
        unitScript p plan (done + 1) rest

namespace BuildSetup

variable {σ : Type}

/-- The calls that make the output of a plan. -/
def linkCalls (x : BuildSetup σ) (p : Project) (plan : ArtifactPlan) : List ToolCall :=
  match p.kind.strategy with
  | .archive => [.archive plan.objects plan.output]
  | .application =>
    [.link plan.objects plan.libraries plan.output x.scripts.application]
  | .kernelImage =>
    .link plan.objects plan.libraries plan.output x.scripts.kernel ::
      (p.disassembly?.map (.disassemble plan.output)).toList
  | .unsupported => []

/-- What the trace shows of a plan that is carried out. -/
def script (x : BuildSetup σ) (p : Project) (plan : ArtifactPlan) : List TraceEntry :=
  .event (.started p.id plan.units.length) :: unitScript p plan 0 plan.units ++
    (x.linkCalls p plan).map (.call p.id)

end BuildSetup

/-! ## Actions along a script -/

namespace Build

variable {σ α β : Type}

/-- What is done with success is what the backend did. -/
theorem act_eq_ok {entry : TraceEntry} {action : EStateM BuildError σ α} {s t : Session σ} {a : α}
    (h : (act entry action).outcome s = (.ok a, t)) : action s.world = .ok a t.world := by
  simp only [outcome, act, answer, Session.record] at h
  cases hanswer : action s.world with
  | ok value after =>
      rw [hanswer] at h
      cases h
      rfl
  | error e after =>
      rw [hanswer] at h
      cases h

/-- The trace of the action is a part of the script from its start on, and all of it when
the action succeeds. -/
def Follows (script : List TraceEntry) (action : Build σ α) : Prop :=
  ∀ s, ∃ done, done <+: script ∧ (action.outcome s).2.trace = s.trace ++ done ∧
    ∀ a, (action.outcome s).1 = .ok a → done = script

/-- Giving a value shows nothing. -/
theorem follows_pure (a : α) : Follows [] (pure a : Build σ α) :=
  fun _ => ⟨[], List.prefix_rfl, by simp, fun _ _ => rfl⟩

/-- What fails at once is at the start of any script. -/
theorem follows_throw (script : List TraceEntry) (e : BuildError) :
    Follows script (throw e : Build σ α) := by
  intro s
  refine ⟨[], List.nil_prefix, by simp, fun a h => ?_⟩
  cases h

/-- Giving a result shows nothing. -/
theorem follows_give (result : Except BuildError α) : Follows [] (give result : Build σ α) := by
  intro s
  rw [outcome_give]
  exact ⟨[], List.prefix_rfl, by simp, fun _ _ => rfl⟩

/-- What the backend does shows its entry. -/
theorem follows_act (entry : TraceEntry) (action : EStateM BuildError σ α) :
    Follows [entry] (act entry action) :=
  fun s => ⟨[entry], List.prefix_rfl, trace_outcome_act entry action s, fun _ _ => rfl⟩

/-- A change of the session that records an entry shows that entry. -/
theorem follows_change {f : Session σ → Session σ} (entry : TraceEntry)
    (h : ∀ s, (f s).trace = s.trace ++ [entry]) : Follows [entry] (change f) :=
  fun s => ⟨[entry], List.prefix_rfl, h s, fun _ _ => rfl⟩

/-- Wrapping errors leaves the script as it is. -/
theorem follows_wrap {script : List TraceEntry} {action : Build σ α}
    (h : Follows script action) (f : BuildError → BuildError) : Follows script (wrap f action) := by
  intro s
  obtain ⟨done, hdone, htrace, hall⟩ := h s
  rw [outcome_wrap]
  refine ⟨done, hdone, htrace, fun a ha => ?_⟩
  cases hresult : (action.outcome s).1 with
  | ok b => exact hall b hresult
  | error e =>
      rw [hresult] at ha
      cases ha

/-- A sequence of actions goes along the script of the first and then along that of the second. -/
theorem follows_bind {first second : List TraceEntry} {action : Build σ α}
    {next : α → Build σ β} (haction : Follows first action)
    (hnext : ∀ a, Follows second (next a)) : Follows (first ++ second) (action >>= next) := by
  intro s
  obtain ⟨done, hdone, htrace, hall⟩ := haction s
  rcases h : action.outcome s with ⟨e | a, t⟩
  · rw [outcome_bind_of_error h]
    rw [h] at htrace
    refine ⟨done, hdone.trans (List.prefix_append first second), htrace, fun b hb => ?_⟩
    cases hb
  · rw [h] at htrace hall
    obtain ⟨more, hmore, htracemore, hallmore⟩ := hnext a t
    rw [outcome_bind_of_ok h, hall a rfl] at *
    refine ⟨first ++ more, (List.prefix_append_right_inj first).2 hmore, ?_, fun b hb => ?_⟩
    · rw [htracemore, htrace, List.append_assoc]
    · rw [hallmore b hb]

/-- An action along a script adds entries of the script. -/
theorem adds_of_follows {φ : TraceEntry → Prop} {script : List TraceEntry} {action : Build σ α}
    (h : Follows script action) (hscript : ∀ entry ∈ script, φ entry) {s t : Session σ}
    {result : Except BuildError α} (houtcome : action.outcome s = (result, t)) :
    Session.Adds φ s t := by
  obtain ⟨done, hdone, htrace, -⟩ := h s
  rw [houtcome] at htrace
  exact ⟨done, htrace, fun entry hentry => hscript entry (hdone.subset hentry)⟩

end Build

/-! ## Plans along their script -/

namespace BuildSetup

open Build

variable {σ : Type} (x : BuildSetup σ) (p : Project)

/-- A call shows itself. -/
theorem follows_perform (call : ToolCall) :
    Follows [.call p.id call] (x.perform p.id call) :=
  follows_act _ _

/-- Compiling a unit shows its calls. -/
theorem follows_compileUnit (plan : ArtifactPlan) (unit : CompilationUnit) :
    Follows ((unitCalls p plan unit).map (.call p.id)) (x.compileUnit p plan unit) := by
  unfold compileUnit unitCalls
  cases unit.object.parent? with
  | none => exact x.follows_perform p _
  | some directory => exact follows_bind (x.follows_perform p _) fun _ => x.follows_perform p _

/-- Compiling some units goes along their script. -/
theorem follows_compileUnits (plan : ArtifactPlan) (done : Nat) (units : List CompilationUnit) :
    Follows (unitScript p plan done units) (x.compileUnits p plan done units) := by
  induction units generalizing done with
  | nil => exact follows_pure ()
  | cons unit rest ih =>
      have hunit := follows_wrap (x.follows_compileUnit p plan unit)
        (.compileFailure p.id unit.source (done + 1) plan.units.length)
      have hnews : Follows [.event (.unitFinished p.id (done + 1) plan.units.length)]
          (change (·.unitDone p.id (done + 1) plan.units.length) : Build σ Unit) :=
        follows_change _ fun _ => rfl
      exact follows_bind hunit fun _ => follows_bind hnews fun _ => ih (done + 1)

/-- A call of linking shows itself. -/
theorem follows_linkCall (stage : LinkStage) (call : ToolCall) :
    Follows [.call p.id call] (x.linkCall p stage call) :=
  follows_wrap (x.follows_perform p call) _

/-- Linking shows the calls of linking. -/
theorem follows_link (plan : ArtifactPlan) :
    Follows ((x.linkCalls p plan).map (.call p.id)) (x.link p plan) := by
  unfold link linkCalls
  cases p.kind.strategy with
  | archive => exact x.follows_linkCall p _ _
  | application => exact x.follows_linkCall p _ _
  | kernelImage =>
      refine follows_bind (x.follows_linkCall p _ _) fun _ => ?_
      cases p.disassembly? with
      | none => exact follows_throw _ _
      | some listing => exact x.follows_linkCall p _ _
  | unsupported => exact follows_throw _ _

/-- A plan is carried out along its script. -/
theorem follows_carryOut (plan : ArtifactPlan) :
    Follows (x.script p plan) (do x.compile p plan; x.link p plan) := by
  have hstart : Follows [.event (.started p.id plan.units.length)]
      (change (·.record (.event (.started p.id plan.units.length))) : Build σ Unit) :=
    follows_change _ fun _ => rfl
  have hcompile := follows_bind hstart fun _ => x.follows_compileUnits p plan 0 plan.units
  exact follows_bind hcompile fun _ => x.follows_link p plan

/-- Making the directories of a project shows its two calls. -/
theorem follows_makeDirectories :
    Follows [.call p.id (.makeDirectory p.objDir), .call p.id (.makeDirectory p.binDir)]
      (x.makeDirectories p) :=
  follows_bind (x.follows_perform p _) fun _ => x.follows_perform p _

/-- Generating the files of a project shows that they are generated. -/
theorem follows_generate : Follows [.generate p.id] (x.generate p) :=
  follows_act _ _

/-- Planning a project shows that it is scanned. -/
theorem follows_plan : Follows [.scan p.id] (x.plan p) :=
  follows_bind (follows_give _) fun _ => follows_bind (follows_act _ _) fun _ => follows_give _

/-- The sources are what was found in the source directory of a project at some time. -/
def Found (sources : List Path) : Prop :=
  ∃ world after, x.backend.scan p.sourceDir world = .ok sources after

/-- A plan is that of the registry for the sources that are there. -/
theorem scan_of_plan {plan : ArtifactPlan} {s t : Session σ}
    (h : (x.plan p).outcome s = (.ok plan, t)) :
    ∃ output sources, p.output? = some output ∧
      x.backend.scan p.sourceDir s.world = .ok sources t.world ∧
      x.registry.planWith p output sources = .ok plan := by
  obtain ⟨output, t₁, houtput, hrest⟩ := outcome_bind_eq_ok h
  obtain ⟨sources, t₂, hscan, hplan⟩ := outcome_bind_eq_ok hrest
  rw [outcome_give] at houtput
  rw [outcome_give] at hplan
  obtain ⟨hrequired, rfl⟩ := Prod.mk.inj houtput
  obtain ⟨hplanned, rfl⟩ := Prod.mk.inj hplan
  refine ⟨output, sources, ?_, act_eq_ok hscan, hplanned⟩
  unfold Project.requireOutput at hrequired
  split at hrequired
  · next found hfound =>
      cases hrequired
      exact hfound
  · cases hrequired

/-- A plan is that of the registry for sources that were found. -/
theorem exists_found_of_plan {plan : ArtifactPlan} {s t : Session σ}
    (h : (x.plan p).outcome s = (.ok plan, t)) :
    ∃ output sources, p.output? = some output ∧
      x.registry.planWith p output sources = .ok plan ∧ x.Found p sources := by
  obtain ⟨output, sources, houtput, hscan, hplanned⟩ := x.scan_of_plan p h
  exact ⟨output, sources, houtput, hplanned, s.world, t.world, hscan⟩

/-- A plan is that of the registry for some sources. -/
theorem outcome_plan_eq_ok {plan : ArtifactPlan} {s t : Session σ}
    (h : (x.plan p).outcome s = (.ok plan, t)) :
    ∃ output sources, p.output? = some output ∧
      x.registry.planWith p output sources = .ok plan := by
  obtain ⟨output, sources, houtput, hplanned, -⟩ := x.exists_found_of_plan p h
  exact ⟨output, sources, houtput, hplanned⟩

end BuildSetup

end NativeBuild
