import NativeBuild.Build.Clean

/-!
# What went before

A session remembers what was done and counts it, and no request looks at either: what is
answered, called and told depends on the states of the projects and on the world alone.  So a
request does the same with and without a past, which stays in front of its trace and is added to
its counters.

Main definitions:

- `Session.following`: a session with the trace and the counters of another one before its own.
- `Build.Oblivious`: an action that does the same whatever went before.

Main results:

- Theorem `oblivious_build`: building a project is such an action.
- Theorem `serveAll_following`: requests are served in the same way whatever went before.
-/

namespace NativeBuild

/-- The counters of two spans of a session, added up. -/
def Stats.plus (first second : Stats) : Stats where
  projectsBuilt := first.projectsBuilt + second.projectsBuilt
  projectsFailed := first.projectsFailed + second.projectsFailed
  unitsCompiled := first.unitsCompiled + second.unitsCompiled

namespace Session

variable {σ : Type}

/-- The session when the other one went before it: what that did comes first in the trace, and
what it counted is counted as well. -/
def following (s past : Session σ) : Session σ :=
  { s with stats := past.stats.plus s.stats, trace := past.trace ++ s.trace }

variable (s past : Session σ) (id : String)

@[simp] theorem states_following : (s.following past).states = s.states := rfl

@[simp] theorem world_following : (s.following past).world = s.world := rfl

@[simp] theorem record_following (entry : TraceEntry) :
    (s.following past).record entry = (s.record entry).following past := by
  simp [following, record]

@[simp] theorem setState_following (state : BuildState) :
    (s.following past).setState id state = (s.setState id state).following past := rfl

@[simp] theorem unitDone_following (done total : Nat) :
    (s.following past).unitDone id done total = (s.unitDone id done total).following past := by
  simp [following, unitDone, Stats.plus, Nat.add_assoc]

@[simp] theorem succeed_following :
    (s.following past).succeed id = (s.succeed id).following past := by
  simp [following, succeed, Stats.plus, Nat.add_assoc]

@[simp] theorem fail_following : (s.following past).fail id = (s.fail id).following past := by
  simp [following, fail, setState, Stats.plus, Nat.add_assoc]

@[simp] theorem forget_following :
    (s.following past).forget id = (s.forget id).following past := by
  simp [following, forget, setState]

/-- A session in which nothing is remembered of any project goes on as a fresh one does. -/
theorem eq_following (hstates : ∀ id, s.states id = .notBuilt) :
    s = ({ world := s.world } : Session σ).following s := by
  have hfresh : s.states = fun _ => .notBuilt := funext hstates
  simp [following, Stats.plus, ← hfresh]

end Session

/-! ## Actions -/

namespace Build

variable {σ α β : Type}

/-- The action does the same, whatever went before. -/
def Oblivious (action : Build σ α) : Prop :=
  ∀ s past : Session σ, action.outcome (s.following past) =
    ((action.outcome s).1, (action.outcome s).2.following past)

/-- Giving a value does not look at what went before. -/
theorem oblivious_pure (a : α) : Oblivious (pure a : Build σ α) :=
  fun _ _ => rfl

/-- Failing does not look at what went before. -/
theorem oblivious_throw (e : BuildError) : Oblivious (throw e : Build σ α) :=
  fun _ _ => rfl

/-- Giving a result does not look at what went before. -/
theorem oblivious_give (result : Except BuildError α) : Oblivious (give result : Build σ α) := by
  intro s past
  simp only [outcome_give]

/-- A change of the session that keeps what went before does not look at it. -/
theorem oblivious_change {f : Session σ → Session σ}
    (h : ∀ s past : Session σ, f (s.following past) = (f s).following past) :
    Oblivious (change f) := by
  intro s past
  simp only [outcome_change, h]

/-- What the backend does does not depend on what went before. -/
theorem oblivious_act (entry : TraceEntry) (action : EStateM BuildError σ α) :
    Oblivious (act entry action) := by
  intro s past
  simp only [outcome, act, answer, Session.record_following, Session.world_following]
  cases action (s.record entry).world <;> rfl

/-- Wrapping errors does not look at what went before. -/
theorem oblivious_wrap {action : Build σ α} (h : Oblivious action)
    (f : BuildError → BuildError) : Oblivious (wrap f action) := by
  intro s past
  simp only [outcome_wrap, h s past]

/-- Marks around an action do not look at what went before. -/
theorem oblivious_bracket {action : Build σ α} (h : Oblivious action) (project : String) :
    Oblivious (bracket project action) := by
  intro s past
  simp only [outcome_bracket, Session.record_following, h (s.record _) past]

/-- A sequence of actions that do not look at what went before does not either. -/
theorem oblivious_bind {action : Build σ α} {next : α → Build σ β} (haction : Oblivious action)
    (hnext : ∀ a, Oblivious (next a)) : Oblivious (action >>= next) := by
  intro s past
  have hfirst := haction s past
  rcases h : action.outcome s with ⟨e | a, t⟩
  · rw [h] at hfirst
    rw [outcome_bind_of_error hfirst, outcome_bind_of_error h]
  · rw [h] at hfirst
    rw [outcome_bind_of_ok hfirst, outcome_bind_of_ok h]
    exact hnext a t past

/-- An action may look at the session, as long as it does not see what went before. -/
theorem oblivious_bind_get {next : Session σ → Build σ β}
    (hpast : ∀ s past : Session σ, next (s.following past) = next s)
    (hnext : ∀ s, Oblivious (next s)) : Oblivious ((get : Build σ _) >>= next) := by
  intro s past
  have hget : ∀ t, ((get : Build σ _) >>= next).outcome t = (next t).outcome t := fun _ => rfl
  rw [hget, hget, hpast]
  exact hnext s s past

end Build

namespace BuildSetup

open Build

variable {σ : Type} {x : BuildSetup σ} {p : Project} {buildOne : String → Build σ Unit}

/-! ## Steps of one project -/

/-- A call does not look at what went before. -/
theorem oblivious_perform (project : String) (call : ToolCall) :
    Oblivious (x.perform project call) :=
  oblivious_act _ _

/-- Making the directories of a project does not look at what went before. -/
theorem oblivious_makeDirectories (p : Project) : Oblivious (x.makeDirectories p) :=
  oblivious_bind (oblivious_perform _ _) fun _ => oblivious_perform _ _

/-- Compiling a unit does not look at what went before. -/
theorem oblivious_compileUnit (plan : ArtifactPlan) (unit : CompilationUnit) :
    Oblivious (x.compileUnit p plan unit) := by
  unfold compileUnit
  cases unit.object.parent? with
  | none => exact oblivious_perform _ _
  | some directory =>
      exact oblivious_bind (oblivious_perform _ _) fun _ => oblivious_perform _ _

/-- Compiling some units does not look at what went before. -/
theorem oblivious_compileUnits (plan : ArtifactPlan) (done : Nat)
    (units : List CompilationUnit) : Oblivious (x.compileUnits p plan done units) := by
  induction units generalizing done with
  | nil => exact oblivious_pure ()
  | cons unit rest ih =>
      have hunit : Oblivious
          (change (·.unitDone p.id (done + 1) plan.units.length) : Build σ Unit) :=
        oblivious_change fun s past => s.unitDone_following past p.id _ _
      refine oblivious_bind (oblivious_wrap (oblivious_compileUnit plan unit) _) fun _ => ?_
      exact oblivious_bind hunit fun _ => ih (done + 1)

/-- Linking does not look at what went before. -/
theorem oblivious_link (plan : ArtifactPlan) : Oblivious (x.link p plan) := by
  have hcall : ∀ stage call, Oblivious (x.linkCall p stage call) :=
    fun _ _ => oblivious_wrap (oblivious_perform _ _) _
  unfold link
  cases p.kind.strategy with
  | archive => exact hcall _ _
  | application => exact hcall _ _
  | kernelImage =>
      refine oblivious_bind (hcall _ _) fun _ => ?_
      cases p.disassembly? with
      | none => exact oblivious_throw _
      | some listing => exact hcall _ _
  | unsupported => exact oblivious_throw _

/-- Producing a project does not look at what went before. -/
theorem oblivious_produce (p : Project) : Oblivious (x.produce p) := by
  refine oblivious_bind ?planned fun plan => oblivious_bind ?compiled fun _ => oblivious_link plan
  case planned =>
    refine oblivious_bind (oblivious_give _) fun _ => ?_
    exact oblivious_bind (oblivious_act _ _) fun _ => oblivious_give _
  case compiled =>
    have hstarted : Oblivious
        (change (·.record (.event (.started p.id plan.units.length))) : Build σ Unit) :=
      oblivious_change fun s past => s.record_following past _
    exact oblivious_bind hstarted fun _ => oblivious_compileUnits plan 0 plan.units

/-! ## Building -/

/-- Building libraries does not look at what went before, if building one does not. -/
theorem oblivious_buildLibraries (hone : ∀ id, Oblivious (buildOne id)) (p : Project)
    (ids : List String) : Oblivious (buildLibraries buildOne p ids) := by
  induction ids with
  | nil => exact oblivious_pure ()
  | cons id rest ih => exact oblivious_bind (oblivious_wrap (hone id) _) fun _ => ih

/-- The steps of a project do not look at what went before, if building a library does not. -/
theorem oblivious_runSteps (hone : ∀ id, Oblivious (buildOne id)) (p : Project) :
    Oblivious (x.runSteps buildOne p) := by
  have hmarked : Oblivious (change (·.setState p.id .built) : Build σ Unit) :=
    oblivious_change fun s past => s.setState_following past p.id .built
  refine oblivious_bind (oblivious_give _) fun _ => oblivious_bind (oblivious_act _ _) fun _ => ?_
  refine oblivious_bind hmarked fun _ => ?_
  exact oblivious_bind (oblivious_buildLibraries hone p p.libs) fun _ => oblivious_produce p

/-- Counting the outcome of steps does not look at what went before, if they do not. -/
theorem oblivious_settle {steps : Build σ Unit} (h : Oblivious steps) (id : String) :
    Oblivious (settle id steps) := by
  have hsettle : ∀ s, (settle id steps).outcome s =
      match steps.outcome s with
      | (.ok _, t) => (.ok (), t.succeed id)
      | (.error e, t) => (.error e, t.fail id) := by
    intro s
    simp only [outcome, settle]
    cases steps s <;> rfl
  intro s past
  rw [hsettle, hsettle, h s past]
  rcases steps.outcome s with ⟨e | _, t⟩ <;> simp

/-- Entering a project does not look at what went before, if building a library does not. -/
theorem oblivious_enter (hone : ∀ id, Oblivious (buildOne id)) (id : String) :
    Oblivious (x.enter buildOne id) := by
  refine oblivious_bind (oblivious_give _) fun p =>
    oblivious_bind (oblivious_makeDirectories p) fun _ => ?_
  -- What comes next depends on the state of the project, and on no more of the session.
  refine oblivious_bind_get (fun _ _ => rfl) fun s => ?_
  cases s.states p.id with
  | built => exact oblivious_change fun s past => s.record_following past _
  | failed => exact oblivious_throw _
  | notBuilt => exact oblivious_settle (oblivious_runSteps hone p) _

/-- Building a project to some depth does not look at what went before. -/
theorem oblivious_buildWithin (depth : Nat) (id : String) :
    Oblivious (x.buildWithin depth id) := by
  induction depth generalizing id with
  | zero => exact oblivious_throw _
  | succ depth ih => exact oblivious_bracket (oblivious_enter ih id) id

/-- Building a project does the same whatever went before. -/
theorem oblivious_build (id : String) : Oblivious (x.build id) :=
  oblivious_buildWithin _ id

/-- Building several projects does the same whatever went before. -/
theorem buildEach_following (ids : List String) (s past : Session σ) :
    x.buildEach ids (s.following past) =
      ((x.buildEach ids s).1, (x.buildEach ids s).2.following past) := by
  induction ids generalizing s with
  | nil => rfl
  | cons id rest ih => simp only [buildEach, oblivious_build id s past, ih]

/-! ## Cleaning -/

/-- Cleaning a project does not look at what went before. -/
theorem oblivious_clean (id : String) : Oblivious (x.clean id) := by
  refine oblivious_bind (oblivious_give _) fun p => ?_
  refine oblivious_bind (oblivious_perform _ _) fun _ => oblivious_bind (oblivious_perform _ _) ?_
  exact fun _ => oblivious_change fun s past => s.forget_following past p.id

/-- Cleaning several projects does not look at what went before. -/
theorem oblivious_cleanEach (ids : List String) : Oblivious (x.cleanEach ids) := by
  induction ids with
  | nil => exact oblivious_pure ()
  | cons id rest ih => exact oblivious_bind (oblivious_clean id) fun _ => ih

/-! ## Requests -/

/-- A request is served in the same way whatever went before. -/
theorem serve_following (request : Request) (s past : Session σ) :
    x.serve request (s.following past) =
      ((x.serve request s).1, (x.serve request s).2.following past) := by
  cases request with
  | build id => simp only [serve, oblivious_build id s past]
  | buildAll => simp only [serve, buildAll, buildEach_following]
  | clean id => simp only [serve, oblivious_clean id s past]
  | cleanAll => simp only [serve, cleanAll, oblivious_cleanEach _ s past]

/-- Requests are served in the same way whatever went before. -/
theorem serveAll_following (requests : List Request) (s past : Session σ) :
    x.serveAll requests (s.following past) =
      ((x.serveAll requests s).1, (x.serveAll requests s).2.following past) := by
  induction requests generalizing s with
  | nil => rfl
  | cons request rest ih => simp only [serveAll, serve_following request s past, ih]

end BuildSetup

end NativeBuild
