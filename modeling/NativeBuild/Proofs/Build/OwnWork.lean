import NativeBuild.Build.Clean

/-!
# The work of one project

Between entering its libraries and being finished, a project only makes calls, generates,
scans and tells of its units.  Such work extends the trace by entries of the project and
leaves all states and the counters of projects alone.

Main definitions:

- `Session.Adds`: a session after further entries with a property.
- `TraceEntry.IsWorkOf`: an entry of such work.
- `Session.Worked`: a session after some work of a project.
- `Build.Works`: an action that only does such work.

Main results:

- Theorems `works_makeDirectories`, `works_generate` and `works_produce`: the steps of a
  build that are no more than that.
-/

namespace NativeBuild

/-! ## Further entries -/

namespace Session

variable {σ : Type} {φ : TraceEntry → Prop} {s t u : Session σ}

/-- The second session has the trace of the first, and then entries with a property. -/
def Adds (φ : TraceEntry → Prop) (s t : Session σ) : Prop :=
  ∃ entries, t.trace = s.trace ++ entries ∧ ∀ entry ∈ entries, φ entry

/-- From a session to itself nothing is added. -/
theorem Adds.refl (s : Session σ) : Adds φ s s :=
  ⟨[], by simp, by simp⟩

/-- More entries may be added after some. -/
theorem Adds.trans (hst : Adds φ s t) (htu : Adds φ t u) : Adds φ s u := by
  obtain ⟨first, hfirst, hall⟩ := hst
  obtain ⟨second, hsecond, hall'⟩ := htu
  refine ⟨first ++ second, by rw [hsecond, hfirst, List.append_assoc], fun entry hentry => ?_⟩
  rcases List.mem_append.1 hentry with hentry | hentry
  · exact hall entry hentry
  · exact hall' entry hentry

/-- One more entry with the property. -/
theorem Adds.concat (h : Adds φ s t) {entry : TraceEntry}
    (htrace : u.trace = t.trace ++ [entry]) (hentry : φ entry) : Adds φ s u :=
  h.trans ⟨[entry], htrace, by simpa using hentry⟩

end Session

/-! ## Work -/

/-- The entry shows work of a project itself: a call, the generated files, the search for
sources, or news of its units. -/
def TraceEntry.IsWorkOf (id : String) : TraceEntry → Prop
  | .call project _ => project = id
  | .generate project => project = id
  | .scan project => project = id
  | .event (.started project _) => project = id
  | .event (.unitFinished project _ _) => project = id
  | _ => False

/-- The second session is the first after some work of a project. -/
structure Session.Worked {σ : Type} (id : String) (s t : Session σ) : Prop where
  states : t.states = s.states
  built : t.stats.projectsBuilt = s.stats.projectsBuilt
  failed : t.stats.projectsFailed = s.stats.projectsFailed
  trace : ∃ entries, t.trace = s.trace ++ entries ∧ ∀ entry ∈ entries, entry.IsWorkOf id

namespace Session

variable {σ : Type} {id : String} {s t u : Session σ}

/-- From a session to itself no work is done. -/
theorem Worked.refl (id : String) (s : Session σ) : Worked id s s :=
  ⟨rfl, rfl, rfl, [], by simp, by simp⟩

/-- Work after work is work. -/
theorem Worked.trans (hst : Worked id s t) (htu : Worked id t u) : Worked id s u :=
  ⟨htu.states.trans hst.states, htu.built.trans hst.built, htu.failed.trans hst.failed,
    Adds.trans hst.trace htu.trace⟩

/-- One entry of work is work. -/
theorem Worked.of_entry (entry : TraceEntry) (hentry : entry.IsWorkOf id)
    (hstates : t.states = s.states) (hbuilt : t.stats.projectsBuilt = s.stats.projectsBuilt)
    (hfailed : t.stats.projectsFailed = s.stats.projectsFailed)
    (htrace : t.trace = s.trace ++ [entry]) : Worked id s t :=
  ⟨hstates, hbuilt, hfailed, [entry], htrace, by simpa using hentry⟩

end Session

namespace Build

variable {σ α β : Type} {id : String}

/-! ## Actions that only do work -/

/-- The action does work of a project and nothing else, whether it succeeds or fails. -/
def Works (id : String) (action : Build σ α) : Prop :=
  ∀ s, Session.Worked id s (action.outcome s).2

/-- After an action that only does work, the session is the one before after some work. -/
theorem Works.worked {action : Build σ α} {s t : Session σ} {result : Except BuildError α}
    (h : Works id action) (houtcome : action.outcome s = (result, t)) :
    Session.Worked id s t := by
  have hworked := h s
  rwa [houtcome] at hworked

/-- Giving a value does no work. -/
theorem works_pure (a : α) : Works id (pure a : Build σ α) :=
  fun s => .refl id s

/-- Failing does no work. -/
theorem works_throw (e : BuildError) : Works id (throw e : Build σ α) :=
  fun s => .refl id s

/-- Giving a result does no work. -/
theorem works_give (result : Except BuildError α) : Works id (give result : Build σ α) := by
  intro s
  rw [outcome_give]
  exact .refl id s

/-- What the backend does under an entry of work is work. -/
theorem works_act (entry : TraceEntry) (hentry : entry.IsWorkOf id)
    (action : EStateM BuildError σ α) : Works id (act entry action) := by
  intro s
  refine .of_entry entry hentry (states_outcome_act entry action s) ?_ ?_
    (trace_outcome_act entry action s)
  · rw [stats_outcome_act]
  · rw [stats_outcome_act]

/-- Wrapping the error of work leaves it work. -/
theorem works_wrap {action : Build σ α} (h : Works id action) (f : BuildError → BuildError) :
    Works id (wrap f action) := by
  intro s
  rw [outcome_wrap]
  exact h s

/-- A sequence of actions that do work does work. -/
theorem works_bind {action : Build σ α} {next : α → Build σ β} (haction : Works id action)
    (hnext : ∀ a, Works id (next a)) : Works id (action >>= next) := by
  intro s
  have hworked := haction s
  rcases h : action.outcome s with ⟨_ | a, t⟩
  · rw [outcome_bind_of_error h]
    rwa [h] at hworked
  · rw [outcome_bind_of_ok h]
    rw [h] at hworked
    exact hworked.trans (hnext a t)

end Build

namespace BuildSetup

open Build

variable {σ : Type} (x : BuildSetup σ) (p : Project)

/-! ## The steps of a build -/

/-- A call for a project is its work. -/
theorem works_perform (call : ToolCall) : Works p.id (x.perform p.id call) :=
  works_act (.call p.id call) rfl _

/-- Making the directories of a project is its work. -/
theorem works_makeDirectories : Works p.id (x.makeDirectories p) :=
  works_bind (x.works_perform p _) fun _ => x.works_perform p _

/-- Generating the files of a project is its work. -/
theorem works_generate : Works p.id (x.generate p) :=
  works_act (.generate p.id) rfl _

/-- Planning a project is its work. -/
theorem works_plan : Works p.id (x.plan p) :=
  works_bind (works_give _) fun _ => works_bind (works_act (.scan p.id) rfl _) fun _ =>
    works_give _

/-- Compiling a unit of a project is its work. -/
theorem works_compileUnit (plan : ArtifactPlan) (unit : CompilationUnit) :
    Works p.id (x.compileUnit p plan unit) := by
  unfold compileUnit
  cases unit.object.parent? with
  | none => exact x.works_perform p _
  | some directory => exact works_bind (x.works_perform p _) fun _ => x.works_perform p _

/-- Counting a unit of a project is its work. -/
theorem works_unitDone (done total : Nat) :
    Works p.id (change (·.unitDone p.id done total) : Build σ Unit) :=
  fun _ => .of_entry (.event (.unitFinished p.id done total)) rfl rfl rfl rfl rfl

/-- Compiling some units of a project is its work. -/
theorem works_compileUnits (plan : ArtifactPlan) (done : Nat) (units : List CompilationUnit) :
    Works p.id (x.compileUnits p plan done units) := by
  induction units generalizing done with
  | nil => exact works_pure ()
  | cons unit rest ih =>
      refine works_bind (works_wrap (x.works_compileUnit p plan unit) _) fun _ => ?_
      exact works_bind (works_unitDone p _ _) fun _ => ih (done + 1)

/-- Compiling all units of a project is its work. -/
theorem works_compile (plan : ArtifactPlan) : Works p.id (x.compile p plan) := by
  refine works_bind (fun _ => ?_) fun _ => x.works_compileUnits p plan 0 plan.units
  exact .of_entry (.event (.started p.id plan.units.length)) rfl rfl rfl rfl rfl

/-- A call of linking for a project is its work. -/
theorem works_linkCall (stage : LinkStage) (call : ToolCall) :
    Works p.id (x.linkCall p stage call) :=
  works_wrap (x.works_perform p call) _

/-- Linking a project is its work. -/
theorem works_link (plan : ArtifactPlan) : Works p.id (x.link p plan) := by
  unfold link
  cases p.kind.strategy with
  | archive => exact x.works_linkCall p _ _
  | application => exact x.works_linkCall p _ _
  | kernelImage =>
      refine works_bind (x.works_linkCall p _ _) fun _ => ?_
      cases p.disassembly? with
      | none => exact works_throw _
      | some listing => exact x.works_linkCall p _ _
  | unsupported => exact works_throw _

/-- Producing a project is its work. -/
theorem works_produce : Works p.id (x.produce p) :=
  works_bind (x.works_plan p) fun plan =>
    works_bind (x.works_compile p plan) fun _ => x.works_link p plan

variable {x p} {s t : Session σ} {result : Except BuildError Unit}

/-- Entering a project and making its directories changes no state. -/
theorem states_entered
    (h : (x.makeDirectories p).outcome (s.record (.entered p.id)) = (result, t)) :
    t.states = s.states :=
  ((x.works_makeDirectories p).worked h).states

/-- Generating the files of a project changes no state. -/
theorem states_generate (h : (x.generate p).outcome s = (result, t)) : t.states = s.states :=
  ((x.works_generate p).worked h).states

/-- Producing a project changes no state. -/
theorem states_produce (h : (x.produce p).outcome s = (result, t)) : t.states = s.states :=
  ((x.works_produce p).worked h).states

end BuildSetup

end NativeBuild
