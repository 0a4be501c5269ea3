import NativeBuild.Proofs.Build.Demand
import NativeBuild.Proofs.Build.Tally

/-!
# The effort of a session

How many units a session compiles.  With a steady backend every project has an effort of its
own: the units up to the first that fails, if its steps get as far as that.  A session spends
it once for each project that it enters, so the counter is a sum over states; and two sessions
of which the same was asked end alike.

Main definitions:

- `Build.Spends`: an action that compiles a certain number of units.
- `BuildSetup.yield`: the units of a project that are compiled when it is produced.
- `BuildSetup.effort`: the units that are compiled when a project is entered.

Main results:

- Theorem `spends_produce`: producing a project compiles its yield.
- Theorem `Runs.metered`: a build spends the effort of what it enters.
- Theorem `same_requests`: the order of requests does not matter.
-/

namespace NativeBuild

namespace Build

variable {σ α β : Type}

/-! ## Actions that compile units -/

/-- From every session, the action compiles so many units. -/
def Spends (action : Build σ α) (k : Nat) : Prop :=
  ∀ s, (action.outcome s).2.stats.unitsCompiled = s.stats.unitsCompiled + k

/-- After an action that compiles so many units, they are counted. -/
theorem Spends.of_outcome {action : Build σ α} {k : Nat} {s t : Session σ}
    {result : Except BuildError α} (h : Spends action k)
    (houtcome : action.outcome s = (result, t)) :
    t.stats.unitsCompiled = s.stats.unitsCompiled + k := by
  have hspends := h s
  rwa [houtcome] at hspends

/-- Giving a value compiles nothing. -/
theorem spends_pure (a : α) : Spends (pure a : Build σ α) 0 :=
  fun _ => rfl

/-- Failing compiles nothing. -/
theorem spends_throw (e : BuildError) : Spends (throw e : Build σ α) 0 :=
  fun _ => rfl

/-- Giving a result compiles nothing. -/
theorem spends_give (result : Except BuildError α) : Spends (give result : Build σ α) 0 := by
  intro s
  rw [outcome_give]
  rfl

/-- What the backend does is not counted as a unit. -/
theorem spends_act (entry : TraceEntry) (action : EStateM BuildError σ α) :
    Spends (act entry action) 0 := by
  intro s
  rw [stats_outcome_act]
  rfl

/-- Wrapping an error counts nothing more. -/
theorem spends_wrap {action : Build σ α} {k : Nat} (h : Spends action k)
    (f : BuildError → BuildError) : Spends (wrap f action) k := by
  intro s
  rw [outcome_wrap]
  exact h s

/-- After an action that compiles some units, whether it succeeds or fails, one that compiles
none. -/
theorem spends_bind {action : Build σ α} {next : α → Build σ β} {k : Nat}
    (haction : Spends action k) (hnext : ∀ a, Spends (next a) 0) :
    Spends (action >>= next) k := by
  intro s
  rcases h : action.outcome s with ⟨_ | a, t⟩
  · rw [outcome_bind_of_error h]
    exact haction.of_outcome h
  · rw [outcome_bind_of_ok h, hnext a t]
    exact haction.of_outcome h

/-- Two actions of which the first always succeeds. -/
theorem spends_bind_of_ok {first second : Build σ Unit} {j k : Nat} (hok : OkIff first True)
    (hfirst : Spends first j) (hsecond : Spends second k) :
    Spends (do first; second) (j + k) := by
  intro s
  rcases h : first.outcome s with ⟨e | _, t⟩
  · cases (hok.of_outcome h).2 trivial
  · rw [outcome_bind_of_ok h, hsecond t, hfirst.of_outcome h, Nat.add_assoc]

/-- Two actions of which the first always fails. -/
theorem spends_bind_of_error {first second : Build σ Unit} {k : Nat} (hok : OkIff first False)
    (hfirst : Spends first k) : Spends (do first; second) k := by
  intro s
  rcases h : first.outcome s with ⟨e | _, t⟩
  · rw [outcome_bind_of_error h]
    exact hfirst.of_outcome h
  · exact ((hok.of_outcome h).1 rfl).elim

end Build

namespace BuildSetup

open Build Session

variable {σ : Type} (x : BuildSetup σ) (p : Project)

/-- A call is not counted as a unit. -/
theorem spends_perform (project : String) (call : ToolCall) :
    Spends (x.perform project call) 0 :=
  spends_act _ _

/-- Making directories compiles no units. -/
theorem spends_makeDirectories : Spends (x.makeDirectories p) 0 :=
  spends_bind (x.spends_perform p.id _) fun _ => x.spends_perform p.id _

/-- Generating files compiles no units. -/
theorem spends_generate : Spends (x.generate p) 0 :=
  spends_act _ _

/-- Planning compiles no units. -/
theorem spends_plan : Spends (x.plan p) 0 :=
  spends_bind (spends_give _) fun _ => spends_bind (spends_act _ _) fun _ => spends_give _

/-- A unit is not counted as long as it is being compiled. -/
theorem spends_compileUnit (plan : ArtifactPlan) (unit : CompilationUnit) :
    Spends (x.compileUnit p plan unit) 0 := by
  unfold compileUnit
  cases unit.object.parent? with
  | none => exact x.spends_perform p.id _
  | some directory => exact spends_bind (x.spends_perform p.id _) fun _ => x.spends_perform p.id _

/-- Linking compiles no units. -/
theorem spends_link (plan : ArtifactPlan) : Spends (x.link p plan) 0 := by
  unfold link
  cases p.kind.strategy with
  | archive => exact spends_wrap (x.spends_perform p.id _) _
  | application => exact spends_wrap (x.spends_perform p.id _) _
  | kernelImage =>
      refine spends_bind (spends_wrap (x.spends_perform p.id _) _) fun _ => ?_
      cases p.disassembly? with
      | none => exact spends_throw _
      | some listing => exact spends_wrap (x.spends_perform p.id _) _
  | unsupported => exact spends_throw _

/-! ## The yield of a project -/

/-- By the answers, all calls for a unit succeed. -/
def compiles (answers : Answers) (p : Project) (plan : ArtifactPlan) (unit : CompilationUnit) :
    Bool :=
  (unitCalls p plan unit).all fun call => (answers.perform call).isOk

/-- By the answers, the number of units that are compiled when a project is produced: those of
its plan up to the first that fails, and none if it cannot be planned. -/
def yield (answers : Answers) : Nat :=
  match p.output?, answers.scan p.sourceDir with
  | some output, .ok sources =>
    match x.registry.planWith p output sources with
    | .ok plan => (plan.units.takeWhile (compiles answers p plan)).length
    | .error _ => 0
  | _, _ => 0

variable {x : BuildSetup σ} {p : Project} {answers : Answers}

/-- A unit compiles if and only if the answers to its calls say so. -/
theorem compiles_iff {plan : ArtifactPlan} {unit : CompilationUnit} :
    compiles answers p plan unit = true ↔
      ∀ call ∈ unitCalls p plan unit, answers.perform call = .ok () := by
  rw [compiles, List.all_eq_true]
  refine forall₂_congr fun call _ => ?_
  cases answers.perform call with
  | ok _ => exact iff_of_true rfl rfl
  | error e => simp [Except.isOk, Except.toBool]

/-- Units are compiled up to the first that fails. -/
theorem spends_compileUnits (hsteady : x.backend.Steady answers) (plan : ArtifactPlan)
    (done : Nat) (units : List CompilationUnit) :
    Spends (x.compileUnits p plan done units)
      (units.takeWhile (compiles answers p plan)).length := by
  induction units generalizing done with
  | nil => exact spends_pure ()
  | cons unit rest ih =>
      have hok := okIff_wrap (okIff_compileUnit hsteady p plan unit)
        (.compileFailure p.id unit.source (done + 1) plan.units.length)
      have hunit := spends_wrap (x.spends_compileUnit p plan unit)
        (.compileFailure p.id unit.source (done + 1) plan.units.length)
      rw [List.takeWhile_cons]
      rw [← compiles_iff] at hok
      cases hcompiles : compiles answers p plan unit with
      | true =>
          have hnews : Spends (change (·.unitDone p.id (done + 1) plan.units.length) :
              Build σ Unit) 1 := fun _ => rfl
          have hrest := spends_bind_of_ok (okIff_change _) hnews (ih (done + 1))
          have hall := spends_bind_of_ok (hok.congr (by simp [hcompiles])) hunit hrest
          rw [Nat.zero_add] at hall
          rwa [if_pos rfl, List.length_cons, Nat.add_comm]
      | false => exact spends_bind_of_error (hok.congr (by simp [hcompiles])) hunit

/-- The yield of a project is that of its plan, if it can be planned. -/
theorem yield_eq (hsteady : x.backend.Steady answers) (s : Session σ) :
    x.yield p answers = match ((x.plan p).outcome s).1 with
      | .ok plan => (plan.units.takeWhile (compiles answers p plan)).length
      | .error _ => 0 := by
  unfold yield
  cases houtput : p.output? with
  | none =>
      have hplan : ((x.plan p).outcome s).1 = .error (.invalidProject p.id
          "unknown project type has no output") := by
        have hgive := outcome_give p.requireOutput s
        rw [Project.requireOutput, houtput] at hgive
        rw [plan, Project.requireOutput, houtput, outcome_bind_of_error hgive]
      rw [hplan]
  | some output =>
      rw [fst_outcome_plan hsteady houtput]
      cases answers.scan p.sourceDir with
      | error e => rfl
      | ok sources => rfl

/-- Producing a project compiles its yield. -/
theorem spends_produce (hsteady : x.backend.Steady answers) (p : Project) :
    Spends (x.produce p) (x.yield p answers) := by
  intro s
  rw [yield_eq hsteady s, produce]
  rcases hplan : (x.plan p).outcome s with ⟨e | plan, t⟩
  · rw [outcome_bind_of_error hplan]
    exact (x.spends_plan p).of_outcome hplan
  · have hstarted : Spends
        (change (·.record (.event (.started p.id plan.units.length))) : Build σ Unit) 0 :=
      fun _ => rfl
    have hunits := spends_bind_of_ok (okIff_change _) hstarted
      (spends_compileUnits hsteady (p := p) plan 0 plan.units)
    rw [Nat.zero_add] at hunits
    have hcarried := spends_bind hunits fun _ => x.spends_link p plan
    rw [outcome_bind_of_ok hplan]
    exact (hcarried t).trans (by rw [(x.spends_plan p).of_outcome hplan, Nat.add_zero])

/-! ## The effort of a session -/

open Classical in
/-- By the answers, the number of units that are compiled when a project is entered: its yield,
if its steps get as far as producing it. -/
noncomputable def effort (x : BuildSetup σ) (answers : Answers) (id : String) : Nat :=
  match x.registry.get? id with
  | none => 0
  | some p =>
    if x.validate p = .ok () ∧ answers.generate p = .ok () ∧
        ∀ d ∈ p.libs, x.Attainable answers d then
      x.yield p answers
    else 0

/-- The effort of a project in a state: nothing as long as it was not entered. -/
noncomputable def spent (x : BuildSetup σ) (answers : Answers) (id : String) :
    BuildState → Nat
  | .notBuilt => 0
  | _ => x.effort answers id

/-- The effort that a task spends on the project whose steps it takes. -/
noncomputable def taskEffort (x : BuildSetup σ) (answers : Answers) : BuildTask → Nat
  | .steps p => x.effort answers p.id
  | _ => 0

/-- A project whose steps come to its plan costs what it yields. -/
theorem effort_of_steps (hp : x.registry.get? p.id = some p) (hvalid : x.validate p = .ok ())
    (hgen : answers.generate p = .ok ()) (hlibs : ∀ d ∈ p.libs, x.Attainable answers d) :
    x.effort answers p.id = x.yield p answers := by
  simp only [effort, hp]
  exact if_pos ⟨hvalid, hgen, hlibs⟩

/-- A project whose steps stop before its plan costs nothing. -/
theorem effort_eq_zero (hp : x.registry.get? p.id = some p) (answers : Answers)
    (hstops : ¬ (x.validate p = .ok () ∧ answers.generate p = .ok () ∧
      ∀ d ∈ p.libs, x.Attainable answers d)) : x.effort answers p.id = 0 := by
  simp only [effort, hp]
  exact if_neg hstops

variable {stack : List String} {s t : Session σ} {result : Except BuildError Unit} {id : String}

/-- The units that were compiled are the effort of the projects that were entered, apart from
those that are being built. -/
def Metered (x : BuildSetup σ) (answers : Answers) (stack : List String) (s : Session σ) : Prop :=
  s.stats.unitsCompiled = s.tally x.registry stack (x.spent answers)

/-- A fresh session has spent nothing. -/
theorem metered_fresh (x : BuildSetup σ) (answers : Answers) (world : σ) :
    x.Metered answers [] { world } := by
  simp [Metered, tally, spent]

/-- Only the states of projects that are not being built matter. -/
theorem Metered.congr (h : x.Metered answers stack s)
    (hstates : ∀ q, q ∉ stack → t.states q = s.states q)
    (hunits : t.stats.unitsCompiled = s.stats.unitsCompiled) : x.Metered answers stack t := by
  rw [Metered, hunits, tally_congr hstates]
  exact h

/-- What compiles no units and changes no state. -/
theorem Metered.worked {α : Type} {action : Build σ α} {outcome : Except BuildError α}
    (h : x.Metered answers stack s) (hworks : Works id action) (hspends : Spends action 0)
    (houtcome : action.outcome s = (outcome, t)) : x.Metered answers stack t :=
  h.congr (fun _ _ => by rw [(hworks.worked houtcome).states]) (hspends.of_outcome houtcome)

/-- Entering a project and making its directories compiles nothing. -/
theorem Metered.entered (h : x.Metered answers stack s)
    (hdirs : (x.makeDirectories p).outcome (s.record (.entered p.id)) = (result, t)) :
    x.Metered answers stack t := by
  have hrecorded : x.Metered answers stack (s.record (.entered p.id)) := h
  exact hrecorded.worked (x.works_makeDirectories p) (x.spends_makeDirectories p) hdirs

/-- A project begins that was not entered. -/
theorem Metered.push (h : x.Metered answers stack s) (hid : id ∈ x.registry.ids)
    (hnot : id ∉ stack) (hstate : s.states id = .notBuilt) :
    x.Metered answers (id :: stack) s := by
  rw [Metered, tally_eq_add hid hnot, hstate] at h
  exact h

/-- The state of a project that runs does not matter. -/
theorem Metered.setState (h : x.Metered answers (id :: stack) s) (state : BuildState) :
    x.Metered answers (id :: stack) (s.setState id state) := by
  refine h.congr (fun q hq => states_setState_other s state ?_) rfl
  rintro rfl
  exact hq List.mem_cons_self

/-- A project ends that spent its effort. -/
theorem Metered.pop {u : Session σ} (hid : id ∈ x.registry.ids) (hnot : id ∉ stack)
    (hu : u.stats.unitsCompiled =
      u.tally x.registry (id :: stack) (x.spent answers) + x.effort answers id)
    (hothers : ∀ q, q ∉ id :: stack → t.states q = u.states q)
    (hunits : t.stats.unitsCompiled = u.stats.unitsCompiled)
    (hstate : t.states id ≠ .notBuilt) : x.Metered answers stack t := by
  have hspent : x.spent answers id (t.states id) = x.effort answers id := by
    unfold spent
    split
    · next heq => exact absurd heq hstate
    · rfl
  rw [Metered, tally_eq_add hid hnot, tally_congr hothers, hspent, hunits, hu]

/-- A task spends the effort of the projects that it enters; its steps spend that of their own
project. -/
theorem Runs.metered (hsteady : x.backend.Steady answers) {task : BuildTask}
    (h : x.Runs stack task s result t) (hfits : task.Fits x.registry stack)
    (hsettled : x.Settled answers (task.inside stack) s)
    (hs : x.Metered answers (task.inside stack) s) :
    t.stats.unitsCompiled =
      t.tally x.registry (task.inside stack) (x.spent answers) + x.taskEffort answers task := by
  induction h with
  | unknown hid => exact hs
  | blocked hp hdirs =>
      have ht := hs.entered hdirs
      exact ht
  | reused hp hdirs hstate =>
      have ht := hs.entered hdirs
      exact ht
  | refused hp hdirs hstate =>
      have ht := hs.entered hdirs
      exact ht
  | @succeeded stack p s t u hp hdirs hstate hsteps ih =>
      have hid := Registry.mem_ids_iff.2 ⟨p, hp⟩
      have ht := hs.entered hdirs
      have hsame := states_entered hdirs
      have hu := ih ⟨hp, hfits⟩ ((hsettled.of_states hsame).push p.id) (ht.push hid hfits hstate)
      refine Metered.pop hid hfits hu (fun _ _ => rfl) rfl ?_
      simp [hsteps.built_of_steps]
  | @failed stack p s t u e hp hdirs hstate hsteps ih =>
      have hid := Registry.mem_ids_iff.2 ⟨p, hp⟩
      have ht := hs.entered hdirs
      have hsame := states_entered hdirs
      have hu := ih ⟨hp, hfits⟩ ((hsettled.of_states hsame).push p.id) (ht.push hid hfits hstate)
      refine Metered.pop hid hfits hu (fun q hq => ?_) rfl (by simp)
      have hne : q ≠ p.id := fun heq => hq (heq ▸ List.mem_cons_self)
      simp [hne]
  | invalid hinvalid =>
      have hstops := effort_eq_zero hfits.1 answers fun hgoes => by
        cases hinvalid.symm.trans hgoes.1
      rw [taskEffort, hstops]
      exact hs
  | ungenerated hvalid hgen =>
      have hstops := effort_eq_zero hfits.1 answers fun hgoes => by
        cases ((okIff_generate hsteady _).of_outcome hgen).2 hgoes.2.1
      rw [taskEffort, hstops]
      exact hs.worked (x.works_generate _) (x.spends_generate _) hgen
  | @interrupted stack p s t u e hvalid hgen hlibs ih =>
      have hsame := states_generate hgen
      have ht := (hsettled.of_states hsame).setState .built
      have hstops := effort_eq_zero hfits.1 answers fun hgoes => by
        cases (hlibs.settled hsteady (by simp) ht).2.2 hgoes.2.2
      rw [taskEffort, hstops]
      exact ih trivial ht ((hs.worked (x.works_generate p) (x.spends_generate p) hgen).setState _)
  | @produced stack p s t u v result hvalid hgen hlibs hown ih =>
      have hsame := states_generate hgen
      have ht := (hsettled.of_states hsame).setState .built
      have hgenerated := ((okIff_generate hsteady p).of_outcome hgen).1 rfl
      have hattain := (hlibs.settled hsteady (by simp) ht).2.1 rfl
      have hu : u.stats.unitsCompiled =
          u.tally x.registry (p.id :: stack) (x.spent answers) :=
        ih trivial ht ((hs.worked (x.works_generate p) (x.spends_generate p) hgen).setState _)
      have hstates := states_produce hown
      rw [taskEffort, effort_of_steps hfits.1 hvalid hgenerated hattain,
        (spends_produce hsteady p).of_outcome hown, hu, tally_congr fun q _ => by rw [hstates]]
      rfl
  | noLibrary => exact hs
  | nextLibrary hid hfirst hrest ihfirst ihrest =>
      exact ihrest trivial (hfirst.settled_of_call hsteady hid hsettled) (ihfirst hid hsettled hs)
  | lostLibrary hid hfirst ih => exact ih hid hsettled hs

/-- From a fresh session, building some ids compiles the effort of all that is entered. -/
theorem metered_buildEach (hsteady : x.backend.Steady answers) (world : σ) (ids : List String) :
    x.Metered answers [] (x.buildEach ids { world }).2 := by
  obtain ⟨-, hmetered⟩ : x.Settled answers [] (x.buildEach ids { world }).2 ∧
      x.Metered answers [] (x.buildEach ids { world }).2 := by
    refine buildEach_preserves (I := fun s => x.Settled answers [] s ∧ x.Metered answers [] s)
      (fun id s hs => ?_) ids ⟨x.settled_fresh answers world, x.metered_fresh answers world⟩
    obtain ⟨hsettled, hmetered⟩ := hs
    have hrun := x.runs_build id s
    exact ⟨hrun.settled_of_call hsteady List.not_mem_nil hsettled,
      hrun.metered hsteady List.not_mem_nil hsettled hmetered⟩
  exact hmetered

/-! ## The order of requests -/

/-- The order of requests does not matter.  With a backend that always gives the same answers,
let two runs of requests to build, each from a fresh session, ask for the same registered ids,
in any order and any number of times.  Then every id ends in the same state, and all counters
are the same. -/
theorem same_requests (x : BuildSetup σ) (answers : Answers)
    (hsteady : x.backend.Steady answers) (world world' : σ) (requests requests' : List Request)
    (hrequests : ∀ request ∈ requests, request.isBuild = true)
    (hrequests' : ∀ request ∈ requests', request.isBuild = true)
    (hsame : ∀ id, x.registry.contains id = true →
      (id ∈ x.asked requests ↔ id ∈ x.asked requests')) :
    let s := (x.serveAll requests { world }).2
    let t := (x.serveAll requests' { world := world' }).2
    (∀ id, s.states id = t.states id) ∧
      s.stats.projectsBuilt = t.stats.projectsBuilt ∧
      s.stats.projectsFailed = t.stats.projectsFailed ∧
      s.stats.unitsCompiled = t.stats.unitsCompiled := by
  intro s t
  have hs : s = (x.buildEach (x.asked requests) { world }).2 := serveAll_eq_buildEach hrequests _
  have ht : t = (x.buildEach (x.asked requests') { world := world' }).2 :=
    serveAll_eq_buildEach hrequests' _
  obtain ⟨hsettled, hentered⟩ := settled_and_entered hsteady world (x.asked requests)
  obtain ⟨hsettled', hentered'⟩ := settled_and_entered hsteady world' (x.asked requests')
  rw [← hs] at hsettled hentered
  rw [← ht] at hsettled' hentered'
  have hstates : ∀ id, s.states id = t.states id := by
    refine fun id => hsettled.states_eq hsettled' ?_
    rw [hentered, hentered']
    exact ⟨fun h => h.mono fun id hid => (hsame id hid).1,
      fun h => h.mono fun id hid => (hsame id hid).2⟩
  -- Each counter is a sum over the states.
  have hcounted : x.Counted [] s :=
    hs ▸ buildEach_preserves x.stepInvariant_counted.build _ (x.counted_fresh world)
  have hcounted' : x.Counted [] t :=
    ht ▸ buildEach_preserves x.stepInvariant_counted.build _ (x.counted_fresh world')
  have hmetered : x.Metered answers [] s := hs ▸ metered_buildEach hsteady world _
  have hmetered' : x.Metered answers [] t := ht ▸ metered_buildEach hsteady world' _
  have htally : ∀ weight, s.tally x.registry [] weight = t.tally x.registry [] weight :=
    fun weight => tally_congr fun id _ => hstates id
  refine ⟨hstates, ?_, ?_, ?_⟩
  · rw [hcounted.built, hcounted'.built, htally]
  · rw [hcounted.failed, hcounted'.failed, htally]
  · rw [hmetered, hmetered', htally]

end BuildSetup

/-! ## A sample -/

namespace Sample

/-- The session after the application was asked for first, and then a library twice. -/
def otherSession : Session Unit :=
  (tornSetup.serveAll [.build "shell", .build "core", .build "core"] { world := () }).2

/-- Whether the library or the application that fails is asked for first, the library is built
and its one unit compiled. -/
theorem torn_requests_agree :
    (tornSetup.backend.Steady answers ∧
      ∀ id, id ∈ tornSetup.asked [.build "core", .build "shell"] ↔
        id ∈ tornSetup.asked [.build "shell", .build "core", .build "core"]) ∧
    otherSession.states "core" = .built ∧ otherSession.states "shell" = .failed ∧
    otherSession.stats.unitsCompiled = 1 := by
  have hsame : ∀ id, id ∈ tornSetup.asked [.build "core", .build "shell"] ↔
      id ∈ tornSetup.asked [.build "shell", .build "core", .build "core"] := by
    intro id
    simp only [BuildSetup.asked, Request.asked, List.flatMap_cons, List.flatMap_nil,
      List.mem_append, List.mem_singleton, List.not_mem_nil]
    tauto
  obtain ⟨hstates, -, -, hunits⟩ := BuildSetup.same_requests tornSetup answers
    answers.steady_backend () () [.build "core", .build "shell"]
    [.build "shell", .build "core", .build "core"] (by decide) (by decide) fun id _ => hsame id
  have hcore : tornSession.states "core" = .built := by cbv
  have hshell : tornSession.states "shell" = .failed := by cbv
  have hone : tornSession.stats.unitsCompiled = 1 := by cbv
  exact ⟨⟨answers.steady_backend, hsame⟩, (hstates "core").symm.trans hcore,
    (hstates "shell").symm.trans hshell, hunits.symm.trans hone⟩

end Sample

end NativeBuild
