import NativeBuild.Proofs.Build.Advance
import NativeBuild.Proofs.Build.CallRun
import NativeBuild.Proofs.Build.Calls
import NativeBuild.Proofs.Build.Nested
import NativeBuild.Proofs.Build.Steady
import NativeBuild.Proofs.Path.Parent

/-!
# How a plan is executed

Once a project is planned, its own calls are fixed: for each unit in order the directory of
its object is made and its source is compiled or assembled, and then the objects are linked
as the kind of the project asks.  These calls are carried out up to the first that fails,
and which one fails decides the error, the units that are counted and the final state.

Main definitions:

- `BuildSetup.linkOperation` and `BuildSetup.planCalls`: the calls of a plan.
- `BuildSetup.Planned`: the build of a project that comes to a plan.

Main results:

- Theorem `outcome_compileUnits`: units are compiled up to the first call that fails.
- Theorem `outcome_carryOut`: how a plan is carried out.
- Theorem `plan_executed`: what a build that comes to a plan does from there on.
-/

namespace NativeBuild

/-! ## Directories of objects -/

/-- Every object of a project lies in a directory. -/
theorem Project.exists_parent?_object {p : Project} {sources : List Path} {unit : CompilationUnit}
    (h : unit ∈ p.units sources) : ∃ directory, unit.object.parent? = some directory := by
  have hobject : ∀ path : Path, ∃ directory, path.asObject.parent? = some directory :=
    fun path => path.exists_parent?_withSuffix (by decide) (by decide)
  rcases List.mem_cons.1 h with rfl | h
  · exact hobject p.assetSource
  · obtain ⟨source, -, hunit⟩ := List.mem_filterMap.1 h
    obtain ⟨language, -, rfl⟩ := Option.map_eq_some_iff.1 hunit
    unfold objectOf
    split
    · exact hobject _
    · exact hobject source

/-- The end of a project makes no call. -/
theorem Session.Served.ended {σ : Type} {id : String} {run : CallRun σ} {units : Nat}
    {s t : Session σ} (h : Served id run units s t) (result : Except BuildError Unit) :
    Served id run units s ((t.ended id result).record (.left id)) := by
  have htrace : ∃ success, ((t.ended id result).record (.left id)).trace =
      t.trace ++ [.event (.finished id success), .left id] := by
    cases result with
    | ok _ => exact ⟨true, by simp [Session.ended]⟩
    | error e => exact ⟨false, by simp [Session.ended]⟩
  obtain ⟨success, htrace⟩ := htrace
  refine h.told (n := 0) htrace rfl ?_ ?_
  · cases result <;> rfl
  · cases result <;> rfl

namespace BuildSetup

open Build Session

variable {σ : Type} (x : BuildSetup σ) (p : Project) (plan : ArtifactPlan)

/-! ## Compiling -/

/-- How the compiling of units ends, after `done` others of the plan, by the run of their calls:
all of them are done, or those before a unit one of whose calls fails. -/
inductive UnitsEnd (done : Nat) (units : List CompilationUnit) (run : CallRun σ) :
    Except BuildError Unit → Nat → Prop
  | complete (hfailure : run.failure = none) : UnitsEnd done units run (.ok ()) units.length
  | stopped {before after : List CompilationUnit} {unit : CompilationUnit} {part : List ToolCall}
      {call : ToolCall} {cause : BuildError} (hfailure : run.failure = some (call, cause))
      (hunits : units = before ++ unit :: after)
      (hmade : run.made = before.flatMap (unitCalls p plan) ++ part ++ [call])
      (hpart : part ++ [call] <+: unitCalls p plan unit) :
      UnitsEnd done units run (.error (.compileFailure p.id unit.source
        (done + before.length + 1) plan.units.length cause)) before.length

variable {p plan}

/-- After a unit that is done, compiling ends as it does for the others. -/
theorem UnitsEnd.next {done count : Nat} {unit : CompilationUnit} {rest : List CompilationUnit}
    {first run : CallRun σ} {result : Except BuildError Unit}
    (h : UnitsEnd p plan (done + 1) rest run result count)
    (hfirst : first.made = unitCalls p plan unit) :
    UnitsEnd p plan done (unit :: rest) (first.andThen run) result (count + 1) := by
  cases h with
  | complete hfailure => exact .complete hfailure
  | @stopped before after last part call cause hfailure hunits hmade hpart =>
      have hcount : done + 1 + before.length = done + (unit :: before).length := by
        rw [List.length_cons]
        omega
      rw [hcount]
      refine .stopped hfailure (by rw [hunits, List.cons_append]) ?_ hpart
      rw [CallRun.andThen, hfirst, hmade, List.flatMap_cons]
      simp only [List.append_assoc]

variable (p plan)

/-- Units are compiled in their order, up to the first call that fails. -/
theorem outcome_compileUnits (done : Nat) (units : List CompilationUnit) {s t : Session σ}
    {result : Except BuildError Unit}
    (h : (x.compileUnits p plan done units).outcome s = (result, t)) :
    ∃ count, Served p.id (x.backend.run (units.flatMap (unitCalls p plan)) s.world) count s t ∧
      UnitsEnd p plan done units (x.backend.run (units.flatMap (unitCalls p plan)) s.world)
        result count := by
  induction units generalizing done s with
  | nil =>
      cases h
      exact ⟨0, ⟨⟨[], by simp, rfl⟩, rfl, rfl⟩, .complete rfl⟩
  | cons unit rest ih =>
      have hunit := serves_wrap (x.serves_compileUnit p plan unit)
        (.compileFailure p.id unit.source (done + 1) plan.units.length)
      rw [compileUnits] at h
      rw [List.flatMap_cons]
      rcases houtcome : (wrap (.compileFailure p.id unit.source (done + 1) plan.units.length)
        (x.compileUnit p plan unit)).outcome s with ⟨e | _, u⟩
      · obtain ⟨call, cause, hfailure, rfl, hserved⟩ := hunit.of_error houtcome
        rw [outcome_bind_of_error houtcome] at h
        cases h
        obtain ⟨part, hmade, hpart⟩ := Backend.made_of_failure hfailure
        have hsplit : unit :: rest = [] ++ unit :: rest := rfl
        rw [Backend.run_append_of_failure hfailure]
        exact ⟨0, hserved, .stopped hfailure hsplit hmade hpart⟩
      · obtain ⟨hfailure, hserved⟩ := hunit.of_ok houtcome
        rw [outcome_bind_of_ok houtcome, outcome_bind_of_ok (outcome_change _ u)] at h
        have hdone : Served p.id (x.backend.run (unitCalls p plan unit) s.world) (0 + 1) s
            (u.unitDone p.id (done + 1) plan.units.length) :=
          hserved.told (trace_unitDone u _ _ _) rfl rfl rfl
        obtain ⟨count, hrest, hend⟩ := ih (done + 1) h
        rw [hdone.world] at hrest hend
        have hall := hdone.trans hrest
        rw [Nat.zero_add, Nat.add_comm 1] at hall
        rw [Backend.run_append_of_ok hfailure]
        exact ⟨count + 1, hall, hend.next (Backend.made_of_ok hfailure)⟩

/-- Compiling a plan is a run of the calls for its units. -/
theorem outcome_compile {v w : Session σ} {result : Except BuildError Unit}
    (h : (x.compile p plan).outcome v = (result, w)) :
    ∃ count,
      Served p.id (x.backend.run (plan.units.flatMap (unitCalls p plan)) v.world) count v w ∧
      UnitsEnd p plan 0 plan.units
        (x.backend.run (plan.units.flatMap (unitCalls p plan)) v.world) result count := by
  rw [compile, outcome_bind_of_ok (outcome_change _ v)] at h
  obtain ⟨count, hserved, hend⟩ := x.outcome_compileUnits p plan 0 plan.units h
  exact ⟨count, hserved.after_told (trace_record v _) rfl rfl, hend⟩

/-! ## Linking -/

/-- The calls that make an output from the objects of a plan, by the kind of the project. -/
def linkOperation : ProjectKind → List ToolCall
  | .library => [.archive plan.objects plan.output]
  | .application => [.link plan.objects plan.libraries plan.output x.scripts.application]
  | .kernel =>
    [.link plan.objects plan.libraries plan.output x.scripts.kernel,
      .disassemble plan.output (plan.output.withSuffix ".asm")]
  | .loadable => []
  | .unknown => []

/-- The calls of linking each belong to a step of it. -/
theorem exists_linkStage? {kind : ProjectKind} {call : ToolCall}
    (h : call ∈ x.linkOperation plan kind) : ∃ stage, call.linkStage? = some stage := by
  cases kind with
  | library =>
      rw [List.mem_singleton.1 h]
      exact ⟨.archive, rfl⟩
  | application =>
      rw [List.mem_singleton.1 h]
      exact ⟨.link, rfl⟩
  | kernel =>
      rcases List.mem_cons.1 h with rfl | h
      · exact ⟨.link, rfl⟩
      · rw [List.mem_singleton.1 h]
        exact ⟨.disassemble, rfl⟩
  | loadable => cases h
  | unknown => cases h

variable {p plan}

/-- The objects of a project that can be linked are linked by the calls of its kind. -/
theorem serves_link (houtput : p.output? = some plan.output) (hloadable : p.kind ≠ .loadable) :
    x.Serves p.id (x.linkOperation plan p.kind) (linkError p) (x.link p plan) := by
  unfold link
  cases hkind : p.kind with
  | library => exact x.serves_linkCall p rfl
  | application => exact x.serves_linkCall p rfl
  | kernel =>
      have hlisting : p.disassembly? = some (plan.output.withSuffix ".asm") := by
        rw [Project.disassembly?, houtput, Option.map_some]
      simp only [ProjectKind.strategy, hlisting]
      exact serves_bind (x.serves_linkCall p rfl) (x.serves_linkCall p rfl)
  | loadable => exact absurd hkind hloadable
  | unknown => simp [Project.output?, hkind, ProjectKind.extension?] at houtput

/-! ## Plans -/

variable (p plan)

/-- The calls of a plan: those for its units in their order, then those of linking. -/
def planCalls : List ToolCall :=
  plan.units.flatMap (unitCalls p plan) ++ x.linkOperation plan p.kind

/-- How carrying out a plan ends, by the run of its calls: with a result and so many units
done. -/
inductive Execution (run : CallRun σ) : Except BuildError Unit → Nat → Prop
  | complete (hfailure : run.failure = none) (hkind : p.kind ≠ .loadable) :
      Execution run (.ok ()) plan.units.length
  | unsupported (hfailure : run.failure = none) (hkind : p.kind = .loadable) :
      Execution run (.error (.unsupportedKind p.id .loadable)) plan.units.length
  | unit {before after : List CompilationUnit} {unit : CompilationUnit} {part : List ToolCall}
      {call : ToolCall} {cause : BuildError} (hfailure : run.failure = some (call, cause))
      (hunits : plan.units = before ++ unit :: after)
      (hmade : run.made = before.flatMap (unitCalls p plan) ++ part ++ [call])
      (hpart : part ++ [call] <+: unitCalls p plan unit) :
      Execution run (.error (.compileFailure p.id unit.source (before.length + 1)
        plan.units.length cause)) before.length
  | link {stage : LinkStage} {call : ToolCall} {cause : BuildError}
      (hfailure : run.failure = some (call, cause)) (hstage : call.linkStage? = some stage) :
      Execution run (.error (.linkFailure p.id stage cause)) plan.units.length

variable {p plan}

/-- Linking ends the execution of a plan whose units are all done. -/
theorem outcome_link (houtput : p.output? = some plan.output) {v w : Session σ}
    {result : Except BuildError Unit} (h : (x.link p plan).outcome v = (result, w))
    (first : CallRun σ) :
    Served p.id (x.backend.run (x.linkOperation plan p.kind) v.world) 0 v w ∧
      Execution p plan (first.andThen (x.backend.run (x.linkOperation plan p.kind) v.world))
        result plan.units.length := by
  by_cases hkind : p.kind = .loadable
  · rw [link, hkind] at h
    cases h
    rw [hkind]
    exact ⟨⟨⟨[], by simp, rfl⟩, rfl, rfl⟩, .unsupported rfl hkind⟩
  · have hlink := x.serves_link houtput hkind
    rcases result with e | _
    · obtain ⟨call, cause, hfailure, rfl, hserved⟩ := hlink.of_error h
      obtain ⟨stage, hstage⟩ := x.exists_linkStage? plan (Backend.mem_of_failure hfailure)
      rw [linkError, hstage]
      exact ⟨hserved, .link hfailure hstage⟩
    · obtain ⟨hfailure, hserved⟩ := hlink.of_ok h
      exact ⟨hserved, .complete hfailure hkind⟩

/-- Carrying out a plan is a run of its calls. -/
theorem outcome_carryOut (houtput : p.output? = some plan.output) {v w : Session σ}
    {result : Except BuildError Unit}
    (h : Build.outcome (do x.compile p plan; x.link p plan) v = (result, w)) :
    ∃ count, Served p.id (x.backend.run (x.planCalls p plan) v.world) count v w ∧
      Execution p plan (x.backend.run (x.planCalls p plan) v.world) result count := by
  rw [planCalls]
  rcases hcompile : (x.compile p plan).outcome v with ⟨e | _, u⟩
  · rw [outcome_bind_of_error hcompile] at h
    cases h
    obtain ⟨count, hserved, hend⟩ := x.outcome_compile p plan hcompile
    cases hend with
    | stopped hfailure hunits hmade hpart =>
        rw [Backend.run_append_of_failure hfailure, Nat.zero_add]
        exact ⟨_, hserved, .unit hfailure hunits hmade hpart⟩
  · rw [outcome_bind_of_ok hcompile] at h
    obtain ⟨count, hserved, hend⟩ := x.outcome_compile p plan hcompile
    cases hend with
    | complete hfailure =>
        obtain ⟨hlinked, hexecution⟩ := x.outcome_link houtput h
          (x.backend.run (plan.units.flatMap (unitCalls p plan)) v.world)
        rw [hserved.world] at hlinked hexecution
        rw [Backend.run_append_of_ok hfailure]
        exact ⟨plan.units.length, hserved.trans hlinked, hexecution⟩

/-! ## Builds that come to a plan -/

variable (p plan)

/-- From the first session, the build of a project comes to a plan in the second: its
directories are made, it is neither built nor failed, it is accepted, its files are generated,
its libraries are built and its sources are found. -/
inductive Planned (s v : Session σ) : Prop
  | intro {entered generated ready : Session σ} (hp : x.registry.get? p.id = some p)
      (hdirs : (x.makeDirectories p).outcome (s.record (.entered p.id)) = (.ok (), entered))
      (hstate : entered.states p.id = .notBuilt) (hvalid : x.validate p = .ok ())
      (hgen : (x.generate p).outcome entered = (.ok (), generated))
      (hlibs : (buildLibraries x.build p p.libs).outcome (generated.setState p.id .built) =
        (.ok (), ready))
      (hplan : (x.plan p).outcome ready = (.ok plan, v))

variable {x p plan}

/-- A build that comes to a plan goes on by carrying it out. -/
theorem Planned.outcome_build {s v t : Session σ} {result : Except BuildError Unit}
    (h : x.Planned p plan s v) (hbuild : (x.build p.id).outcome s = (result, t)) :
    ∃ w, Build.outcome (do x.compile p plan; x.link p plan) v = (result, w) ∧
      t = (w.ended p.id result).record (.left p.id) ∧ v.states p.id = .built := by
  obtain @⟨entered, generated, ready, hp, hdirs, hstate, hvalid, hgen, hlibs, hplan⟩ := h
  have hcall := (x.runs_build p.id s).callOutcome hp
  rw [hbuild] at hcall
  simp only [hdirs, CallOutcome, hstate] at hcall
  obtain ⟨w, hsteps, rfl⟩ := hcall
  cases hsteps with
  | invalid hinvalid => cases hvalid.symm.trans hinvalid
  | ungenerated _ hfails => cases hgen.symm.trans hfails
  | interrupted _ hgen' hlost =>
      cases hgen.symm.trans hgen'
      cases hlibs.symm.trans hlost.outcome_buildLibraries
  | produced _ hgen' hruns hown =>
      cases hgen.symm.trans hgen'
      cases hlibs.symm.trans hruns.outcome_buildLibraries
      rw [produce, outcome_bind_of_ok hplan] at hown
      refine ⟨w, hown, rfl, ?_⟩
      obtain ⟨⟨done, hadvance⟩, -⟩ := hruns.advances
      have hmarked := states_setState_same generated p.id .built
      rw [((x.works_plan p).worked hplan).states]
      exact hadvance.stays hmarked

/-- What is planned for a registered project is planned for its output and its sources. -/
theorem Planned.output {s v : Session σ} (h : x.Planned p plan s v) :
    p.output? = some plan.output ∧ ∃ sources, plan.units = p.units sources := by
  obtain ⟨-, -, -, -, -, -, hplan⟩ := h
  obtain ⟨output, sources, houtput, hplanned⟩ := x.outcome_plan_eq_ok p hplan
  obtain ⟨-, -, hsame, hunits⟩ := Registry.planWith_eq_ok hplanned
  exact ⟨hsame ▸ houtput, sources, hunits⟩

/-- The execution succeeds when all calls do and the output can be linked. -/
theorem Execution.ok_iff {run : CallRun σ} {result : Except BuildError Unit} {count : Nat}
    (h : Execution p plan run result count) :
    result = .ok () ↔ run.failure = none ∧ p.kind ≠ .loadable := by
  cases h with
  | complete hfailure hkind => simp [hfailure, hkind]
  | unsupported hfailure hkind => simp [hkind]
  | unit hfailure => simp [hfailure]
  | link hfailure => simp [hfailure]

/-- Calls for some units, and for one more, are no part of linking. -/
theorem linkStage?_of_mem_made {before : List CompilationUnit} {unit : CompilationUnit}
    {part : List ToolCall} (hpart : part <+: unitCalls p plan unit) {made : ToolCall}
    (h : made ∈ before.flatMap (unitCalls p plan) ++ part) : made.linkStage? = none := by
  rcases List.mem_append.1 h with h | h
  · obtain ⟨other, -, hmem⟩ := List.mem_flatMap.1 h
    exact linkStage?_of_mem_unitCalls hmem
  · exact linkStage?_of_mem_unitCalls (hpart.subset h)

/-- A plan is executed exactly.  From the session in which a project is planned, its build
makes the calls of the plan, and no others, in their order and up to the first that fails: for
each unit the directory of its object and the call of its language, then those of linking.
If all succeed, all units are counted and the project is built, unless it is a loadable module,
which cannot be linked yet.  If a call for a unit fails, the error names this unit and its
place, the units before it are counted and no call of linking was made; if a call of linking
fails, the error names its step.  Since the session is any, this holds as well for a library
that is built within another build. -/
theorem plan_executed (x : BuildSetup σ) (p : Project) (plan : ArtifactPlan)
    (s v t : Session σ) (result : Except BuildError Unit) (hplanned : x.Planned p plan s v)
    (hbuild : (x.build p.id).outcome s = (result, t)) :
    let run := x.backend.run (x.planCalls p plan) v.world
    (∀ unit ∈ plan.units, ∃ directory, unit.object.parent? = some directory ∧
      unitCalls p plan unit = [.makeDirectory directory,
        match unit.language with
        | .c => .compile unit.source unit.object plan.includePaths [] p.strict
        | .assembly => .assemble unit.source unit.object]) ∧
    run.made <+: x.planCalls p plan ∧
    (∃ entries, t.trace = v.trace ++ entries ∧
      callsOf entries = run.made.map fun call => (p.id, call)) ∧
    (∃ count, t.stats.unitsCompiled = v.stats.unitsCompiled + count ∧
      (run.failure = none →
        run.made = x.planCalls p plan ∧ count = plan.units.length ∧
          result = if p.kind = .loadable then .error (.unsupportedKind p.id .loadable)
            else .ok ()) ∧
      ∀ call cause, run.failure = some (call, cause) →
        (∃ before unit after part, plan.units = before ++ unit :: after ∧
          run.made = before.flatMap (unitCalls p plan) ++ part ++ [call] ∧
          part ++ [call] <+: unitCalls p plan unit ∧
          (∀ made ∈ run.made, made.linkStage? = none) ∧ count = before.length ∧
          result = .error (.compileFailure p.id unit.source (before.length + 1)
            plan.units.length cause)) ∨
        ∃ stage, call.linkStage? = some stage ∧ count = plan.units.length ∧
          result = .error (.linkFailure p.id stage cause)) ∧
    (t.states p.id = .built ↔ run.failure = none ∧ p.kind ≠ .loadable) := by
  intro run
  obtain ⟨houtput, sources, hunits⟩ := hplanned.output
  obtain ⟨w, hcarried, rfl, hbuilt⟩ := hplanned.outcome_build hbuild
  obtain ⟨count, hserved, hexecution⟩ := x.outcome_carryOut houtput hcarried
  have hended := hserved.ended result
  refine ⟨fun unit hunit => ?_, Backend.made_prefix _ _ _, hended.calls,
    ⟨count, hended.units, fun hfailure => ?_, fun call cause hfailure => ?_⟩, ?_⟩
  · rw [hunits] at hunit
    obtain ⟨directory, hdirectory⟩ := Project.exists_parent?_object hunit
    refine ⟨directory, hdirectory, ?_⟩
    simp only [unitCalls, hdirectory]
    unfold unitCall
    cases unit.language <;> rfl
  · refine ⟨Backend.made_of_ok hfailure, ?_⟩
    cases hexecution with
    | complete _ hkind => exact ⟨rfl, (if_neg hkind).symm⟩
    | unsupported _ hkind => exact ⟨rfl, (if_pos hkind).symm⟩
    | unit hfails => cases hfailure.symm.trans hfails
    | link hfails => cases hfailure.symm.trans hfails
  · cases hexecution with
    | complete hnone => cases hfailure.symm.trans hnone
    | unsupported hnone => cases hfailure.symm.trans hnone
    | @unit before after last part _ _ hfails hsplit hmade hpart =>
        cases hfailure.symm.trans hfails
        refine .inl ⟨before, last, after, part, hsplit, hmade, hpart, ?_, rfl, rfl⟩
        intro made hmem
        rw [hmade, List.append_assoc] at hmem
        exact linkStage?_of_mem_made hpart hmem
    | link hfails hstage =>
        cases hfailure.symm.trans hfails
        exact .inr ⟨_, hstage, rfl, rfl⟩
  · rw [← hexecution.ok_iff]
    have hkept : w.states = v.states :=
      ((works_bind (x.works_compile p plan) fun _ => x.works_link p plan).worked hcarried).states
    cases result with
    | ok _ => simp [Session.ended, hkept, hbuilt]
    | error e => simp [Session.ended]

end BuildSetup

/-! ## A sample -/

namespace Sample

/-- A library with two sources of its own. -/
def parser : Project :=
  { id := "parser", kind := .library, root := Path.ofString "parser" }

/-- The answers of a world in which one of the two sources cannot be compiled. -/
def flawedAnswers : Answers where
  perform
    | .compile source _ _ _ _ =>
      if source = Path.ofString "parser/sources/b.c" then
        .error (.toolFailed "gcc" (some 1) "syntax error")
      else .ok ()
    | _ => .ok ()
  generate _ := .ok ()
  scan _ := .ok [Path.ofString "parser/sources/a.c", Path.ofString "parser/sources/b.c"]

/-- The library in that world. -/
def flawedSetup : BuildSetup Unit where
  registry := ⟨[parser], by decide⟩
  backend := flawedAnswers.backend

/-- The plan of the library. -/
def parserPlan : ArtifactPlan where
  project := "parser"
  kind := .library
  units := parser.units
    [Path.ofString "parser/sources/a.c", Path.ofString "parser/sources/b.c"]
  includePaths := [Path.ofString "parser/includes", Path.ofString "parser/obj"]
  libraries := []
  output := Path.ofString "parser/bin/parser.lib"

/-- The session in which the library is planned. -/
def plannedSession : Session Unit :=
  { world := ()
    states := fun id => if id = "parser" then .built else .notBuilt
    trace := [.entered "parser", .call "parser" (.makeDirectory parser.objDir),
      .call "parser" (.makeDirectory parser.binDir), .generate "parser", .scan "parser"] }

/-- The library has no dependencies. -/
theorem parser_closures :
    flawedSetup.registry.linkClosure parser.id = .ok [] ∧
      flawedSetup.registry.headerClosure parser.id = .ok [] := by
  have hid : parser.id ∈ flawedSetup.registry.ids := Registry.mem_ids_iff.2 ⟨parser, rfl⟩
  exact ⟨Registry.linkClosure_eq_ok_iff.2 ⟨hid, .done⟩,
    Registry.headerClosure_eq_ok_iff.2 ⟨hid, .done⟩⟩

/-- In the sample world the library comes to its plan. -/
theorem parser_planned :
    flawedSetup.Planned parser parserPlan { world := () } plannedSession := by
  obtain ⟨hlinks, hheaders⟩ := parser_closures
  have hvalid : flawedSetup.validate parser = .ok () :=
    BuildSetup.validate_eq_ok_iff.2 ⟨rfl, ⟨[], hlinks⟩, [], hheaders⟩
  refine .intro rfl rfl rfl hvalid rfl rfl ?_
  have hplan : flawedSetup.registry.planWith parser (Path.ofString "parser/bin/parser.lib")
      [Path.ofString "parser/sources/a.c", Path.ofString "parser/sources/b.c"] =
        .ok parserPlan := by
    rw [Registry.planWith, Registry.includePaths, Registry.libraries, hlinks, hheaders]
    decide +kernel
  change Build.outcome (Build.give (flawedSetup.registry.planWith parser
    (Path.ofString "parser/bin/parser.lib")
    [Path.ofString "parser/sources/a.c", Path.ofString "parser/sources/b.c"])) plannedSession = _
  rw [hplan]
  rfl

/-- One of the three units of the library fails: the six calls up to it are made, the units before
it are counted, and the library is not built. -/
theorem parser_executed :
    flawedSetup.Planned parser parserPlan { world := () } plannedSession ∧
    (∃ entries, ((flawedSetup.build "parser").outcome { world := () }).2.trace =
        plannedSession.trace ++ entries ∧
      callsOf entries = ((flawedSetup.planCalls parser parserPlan).take 6).map
        fun call => ("parser", call)) ∧
    (∃ before unit after, parserPlan.units = before ++ unit :: after ∧
      ((flawedSetup.build "parser").outcome { world := () }).2.stats.unitsCompiled =
        before.length ∧
      ((flawedSetup.build "parser").outcome { world := () }).1 =
        .error (.compileFailure "parser" unit.source (before.length + 1) 3
          (.toolFailed "gcc" (some 1) "syntax error"))) ∧
    ((flawedSetup.build "parser").outcome { world := () }).2.states "parser" ≠ .built := by
  obtain ⟨-, -, hcalls, ⟨count, hcount, -, hfails⟩, hbuilt⟩ :=
    BuildSetup.plan_executed flawedSetup parser parserPlan { world := () } plannedSession
      ((flawedSetup.build "parser").outcome { world := () }).2
      ((flawedSetup.build "parser").outcome { world := () }).1 parser_planned rfl
  have hmade : (flawedSetup.backend.run (flawedSetup.planCalls parser parserPlan)
      plannedSession.world).made = (flawedSetup.planCalls parser parserPlan).take 6 := by
    decide +kernel
  have hfailure : (flawedSetup.backend.run (flawedSetup.planCalls parser parserPlan)
      plannedSession.world).failure = some
        (.compile (Path.ofString "parser/sources/b.c") (Path.ofString "parser/obj/b.c.o")
          parserPlan.includePaths [] true, .toolFailed "gcc" (some 1) "syntax error") := by
    decide +kernel
  rw [hmade] at hcalls
  rw [hfailure] at hbuilt
  refine ⟨parser_planned, hcalls, ?_, fun hstate => ?_⟩
  · rcases hfails _ _ hfailure with ⟨before, unit, after, -, hsplit, -, -, -, rfl, hresult⟩ |
      ⟨stage, hstage, -⟩
    · exact ⟨before, unit, after, hsplit, hcount.trans (Nat.zero_add _), hresult⟩
    · cases hstage
  · cases (hbuilt.1 hstate).1

end Sample

end NativeBuild
