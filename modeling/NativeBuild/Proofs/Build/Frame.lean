import NativeBuild.Proofs.Build.CallRun
import NativeBuild.Proofs.Build.Calls
import NativeBuild.Proofs.Build.Nested
import NativeBuild.Proofs.Build.Resolution

/-!
# What a build leaves alone

A build touches the project that is asked for and what that reaches over libraries, and nothing
else: no other state changes, and every entry of the trace belongs to one of these projects.
What is reached over includes alone only gives its header directory to the search of others.
And a project that is not accepted fails before anything but its own directories is touched.

Main definitions:

- `TraceEntry.project`: the project that an entry is about.
- `BuildSetup.MadeFor`: the calls that a build may make for a project.
- `BuildSetup.Framed`: a session after work that is confined to some projects.

Main results:

- Theorem `Runs.framed`: a build is confined to any projects that are closed under libraries.
- Theorem `outcome_build_of_invalid`: all that a project does that is not accepted.
- Theorem `build_frame`: both of these for the projects that are reached.
-/

namespace NativeBuild

/-! ## Projects of entries -/

/-- The project that news are about. -/
def Event.project : Event → String
  | .started id _ => id
  | .unitFinished id _ _ => id
  | .finished id _ => id

/-- The project that an entry is about. -/
def TraceEntry.project : TraceEntry → String
  | .entered id | .left id | .call id _ | .generate id | .scan id | .reused id | .cleaned id => id
  | .event told => told.project

/-- Work of a project is about the project. -/
theorem TraceEntry.IsWorkOf.project_eq {entry : TraceEntry} {id : String}
    (h : entry.IsWorkOf id) : entry.project = id := by
  unfold IsWorkOf at h
  split at h <;> first | exact h | cases h

/-! ## Calls for a project -/

namespace BuildSetup

open Build Session

variable {σ : Type} (x : BuildSetup σ) (p : Project)

/-- A call that a build may make for a project.  It names what belongs to the project; apart
from that, headers are searched in the header directories of what the project reaches over
libraries and includes, and the archives that are linked are those of what it reaches over
libraries. -/
inductive MadeFor : ToolCall → Prop
  | objDir : MadeFor (.makeDirectory p.objDir)
  | binDir : MadeFor (.makeDirectory p.binDir)
  | objectDirectory {sources : List Path} {unit : CompilationUnit} {directory : Path}
      (hsources : x.Found p sources) (hunit : unit ∈ p.units sources)
      (hdirectory : unit.object.parent? = some directory) : MadeFor (.makeDirectory directory)
  | compile {sources includePaths : List Path} {unit : CompilationUnit}
      (hsources : x.Found p sources) (hunit : unit ∈ p.units sources)
      (hpaths : ∀ path ∈ includePaths, path = p.includeDir ∨ path = p.objDir ∨
        ∃ dep, x.registry.get? dep.id = some dep ∧
          x.registry.Reaches headerEdges p.id dep.id ∧ path = dep.includeDir) :
      MadeFor (.compile unit.source unit.object includePaths [] p.strict)
  | assemble {sources : List Path} {unit : CompilationUnit} (hsources : x.Found p sources)
      (hunit : unit ∈ p.units sources) : MadeFor (.assemble unit.source unit.object)
  | archive {sources : List Path} {output : Path} (hsources : x.Found p sources)
      (houtput : p.output? = some output) :
      MadeFor (.archive ((p.units sources).map (·.object)) output)
  | link {sources libraries : List Path} {output script : Path} (hsources : x.Found p sources)
      (houtput : p.output? = some output)
      (hlibraries : ∀ library ∈ libraries, ∃ dep, x.registry.get? dep.id = some dep ∧
        x.registry.Reaches linkEdges p.id dep.id ∧
        Registry.archive? dep = some library) :
      MadeFor (.link ((p.units sources).map (·.object)) libraries output script)
  | disassemble {output listing : Path} (houtput : p.output? = some output)
      (hlisting : p.disassembly? = some listing) : MadeFor (.disassemble output listing)

variable {x p}

/-- The calls for the units of a plan are made for its project. -/
theorem madeFor_of_mem_unitCalls {plan : ArtifactPlan} {sources : List Path}
    (hpaths : x.registry.includePaths p = .ok plan.includePaths) (hsources : x.Found p sources)
    {unit : CompilationUnit} (hunit : unit ∈ p.units sources) {call : ToolCall}
    (h : call ∈ unitCalls p plan unit) : x.MadeFor p call := by
  have hown : x.MadeFor p (unitCall p plan unit) := by
    unfold unitCall
    cases unit.language with
    | c => exact .compile hsources hunit fun path => Registry.mem_includePaths hpaths
    | assembly => exact .assemble hsources hunit
  unfold unitCalls at h
  split at h
  · next directory hdirectory =>
      rcases List.mem_cons.1 h with rfl | h
      · exact .objectDirectory hsources hunit hdirectory
      · rwa [List.mem_singleton.1 h]
  · rwa [List.mem_singleton.1 h]

/-- The calls of linking a plan are made for its project. -/
theorem madeFor_of_mem_linkCalls {plan : ArtifactPlan} {sources : List Path}
    (hlibraries : x.registry.libraries p = .ok plan.libraries) (hsources : x.Found p sources)
    (hunits : plan.units = p.units sources) (houtput : p.output? = some plan.output)
    {call : ToolCall} (h : call ∈ x.linkCalls p plan) : x.MadeFor p call := by
  have hlink : ∀ script, x.MadeFor p (.link plan.objects plan.libraries plan.output script) := by
    intro script
    rw [ArtifactPlan.objects, hunits]
    refine .link hsources houtput fun library hlibrary => ?_
    obtain ⟨closure, hclosure, hall⟩ := Registry.mem_libraries hlibraries
    obtain ⟨dep, hdep, hget, harchive⟩ := hall library hlibrary
    exact ⟨dep, hget, (Registry.mem_linkClosure_iff hclosure).1 hdep, harchive⟩
  unfold linkCalls at h
  split at h
  · rw [List.mem_singleton.1 h, ArtifactPlan.objects, hunits]
    exact .archive hsources houtput
  · rw [List.mem_singleton.1 h]
    exact hlink _
  · rcases List.mem_cons.1 h with rfl | h
    · exact hlink _
    · obtain ⟨listing, hlisting, rfl⟩ := by simpa using h
      exact .disassemble houtput hlisting
  · cases h

/-! ## Confined work -/

variable (x) in
/-- The second session is the first after work that is confined to some projects: no other state
changes, and what is done is done for these projects. -/
structure Framed (R : String → Prop) (s t : Session σ) : Prop where
  states : ∀ q, ¬ R q → t.states q = s.states q
  trace : Adds (fun entry => R entry.project ∧ ∀ id call, entry = .call id call →
    ∃ p, x.registry.get? id = some p ∧ x.MadeFor p call) s t

variable {R : String → Prop} {s t u : Session σ}

/-- A session is itself after no work. -/
theorem Framed.refl (s : Session σ) : x.Framed R s s :=
  ⟨fun _ _ => rfl, .refl s⟩

/-- Confined work may go on. -/
theorem Framed.trans (hst : x.Framed R s t) (htu : x.Framed R t u) : x.Framed R s u :=
  ⟨fun q hq => (htu.states q hq).trans (hst.states q hq), hst.trace.trans htu.trace⟩

/-- One more entry of one of the projects, which is no call; their states may change with it. -/
theorem Framed.concat (h : x.Framed R s t) {entry : TraceEntry}
    (htrace : u.trace = t.trace ++ [entry]) (hstates : ∀ q, ¬ R q → u.states q = t.states q)
    (hentry : R entry.project) (hcall : ∀ id call, entry ≠ .call id call) : x.Framed R s u :=
  ⟨fun q hq => (hstates q hq).trans (h.states q hq),
    h.trace.concat htrace ⟨hentry, fun id call heq => absurd heq (hcall id call)⟩⟩

/-- An entry of one of the projects may be recorded that is no call. -/
theorem Framed.record (h : x.Framed R s t) {entry : TraceEntry} (hentry : R entry.project)
    (hcall : ∀ id call, entry ≠ .call id call) : x.Framed R s (t.record entry) :=
  h.concat (trace_record t entry) (fun _ _ => rfl) hentry hcall

/-- The state of one of the projects may change. -/
theorem Framed.setState (h : x.Framed R s t) {id : String} (hid : R id) (state : BuildState) :
    x.Framed R s (t.setState id state) := by
  refine h.trans ⟨fun q hq => ?_, [], by simp, by simp⟩
  exact states_setState_other t state fun heq => hq (heq ▸ hid)

/-- One of the projects ends. -/
theorem Framed.ended (h : x.Framed R s t) {id : String} (hid : R id)
    (result : Except BuildError Unit) :
    x.Framed R s ((t.ended id result).record (.left id)) := by
  have hended : x.Framed R s (t.ended id result) := by
    cases result with
    | ok _ => exact h.concat (trace_succeed t id) (fun _ _ => rfl) hid (by simp)
    | error e =>
        refine h.concat (trace_fail t id) (fun q hq => ?_) hid (by simp)
        exact states_setState_other t .failed fun heq => hq (heq ▸ hid)
  exact hended.record hid (by simp)

/-- Work along a script of calls for a project is confined to it. -/
theorem framed_of_follows {α : Type} (hp : x.registry.get? p.id = some p) (hR : R p.id)
    {script : List TraceEntry} {action : Build σ α} (hworks : Works p.id action)
    (h : Follows script action)
    (hscript : ∀ id call, .call id call ∈ script → id = p.id ∧ x.MadeFor p call)
    {result : Except BuildError α} (houtcome : action.outcome s = (result, t)) :
    x.Framed R s t := by
  obtain ⟨done, hdone, htrace, -⟩ := h s
  have hworked := hworks.worked houtcome
  obtain ⟨entries, htrace', hwork⟩ := hworked.trace
  rw [houtcome] at htrace
  obtain rfl : done = entries := List.append_cancel_left (htrace.symm.trans htrace')
  refine ⟨fun q _ => congrFun hworked.states q, done, htrace, fun entry hentry => ?_⟩
  refine ⟨(hwork entry hentry).project_eq.symm ▸ hR, ?_⟩
  rintro id call rfl
  obtain ⟨rfl, hmade⟩ := hscript id call (hdone.subset hentry)
  exact ⟨p, hp, hmade⟩

/-- Making the directories of a project is confined to it. -/
theorem framed_makeDirectories (hp : x.registry.get? p.id = some p) (hR : R p.id)
    {result : Except BuildError Unit}
    (houtcome : (x.makeDirectories p).outcome (s.record (.entered p.id)) = (result, t)) :
    x.Framed R s t := by
  have hentered : x.Framed R s (s.record (.entered p.id)) :=
    (Framed.refl s).record hR (by simp)
  refine hentered.trans (framed_of_follows hp hR (x.works_makeDirectories p)
    (x.follows_makeDirectories p) ?_ houtcome)
  intro id call hmem
  simp only [List.mem_cons, TraceEntry.call.injEq, List.not_mem_nil, or_false] at hmem
  rcases hmem with ⟨rfl, rfl⟩ | ⟨rfl, rfl⟩
  · exact ⟨rfl, .objDir⟩
  · exact ⟨rfl, .binDir⟩

/-- Generating the files of a project is confined to it. -/
theorem framed_generate (hp : x.registry.get? p.id = some p) (hR : R p.id)
    {result : Except BuildError Unit} (houtcome : (x.generate p).outcome s = (result, t)) :
    x.Framed R s t :=
  framed_of_follows hp hR (x.works_generate p) (x.follows_generate p) (by simp) houtcome

/-- Producing a project is confined to it. -/
theorem framed_produce (hp : x.registry.get? p.id = some p) (hR : R p.id)
    {result : Except BuildError Unit} (houtcome : (x.produce p).outcome s = (result, t)) :
    x.Framed R s t := by
  unfold produce at houtcome
  rcases hplan : (x.plan p).outcome s with ⟨e | plan, u⟩
  · rw [outcome_bind_of_error hplan] at houtcome
    cases houtcome
    exact framed_of_follows hp hR (x.works_plan p) (x.follows_plan p) (by simp) hplan
  · rw [outcome_bind_of_ok hplan] at houtcome
    have hscan : x.Framed R s u :=
      framed_of_follows hp hR (x.works_plan p) (x.follows_plan p) (by simp) hplan
    obtain ⟨output, sources, houtput, hplanned, hsources⟩ := x.exists_found_of_plan p hplan
    obtain ⟨hpaths, hlibraries, rfl, hunits⟩ := Registry.planWith_eq_ok hplanned
    refine hscan.trans (framed_of_follows hp hR
      (works_bind (x.works_compile p plan) fun _ => x.works_link p plan)
      (x.follows_carryOut p plan) ?_ houtcome)
    intro id call hmem
    rcases List.mem_append.1 hmem with hmem | hmem
    · obtain ⟨unit, hunit, other, hother, heq⟩ | ⟨k, heq⟩ :=
        mem_unitScript ((List.mem_cons.1 hmem).resolve_left (by simp))
      · cases heq
        rw [hunits] at hunit
        exact ⟨rfl, madeFor_of_mem_unitCalls hpaths hsources hunit hother⟩
      · cases heq
    · obtain ⟨other, hother, heq⟩ := List.mem_map.1 hmem
      cases heq
      exact ⟨rfl, madeFor_of_mem_linkCalls hlibraries hsources hunits houtput hother⟩

/-! ## Confined builds -/

/-- The projects hold what each of them links. -/
def LinkClosed (r : Registry) (R : String → Prop) : Prop :=
  ∀ p, r.get? p.id = some p → R p.id → ∀ d ∈ p.libs, R d

/-- The task is for some of the projects. -/
def Within (x : BuildSetup σ) (R : String → Prop) : BuildTask → Prop
  | .call id => R id
  | .steps p => x.registry.get? p.id = some p ∧ R p.id
  | .libraries _ ids => ∀ d ∈ ids, R d

/-- A task for some projects that hold what they link is confined to them. -/
theorem Runs.framed (hclosed : LinkClosed x.registry R) {stack : List String}
    {task : BuildTask} {result : Except BuildError Unit} (h : x.Runs stack task s result t)
    (hwithin : x.Within R task) : x.Framed R s t := by
  induction h with
  | @unknown _ id s hid =>
      have hentered : x.Framed R s (s.record (.entered id)) :=
        (Framed.refl s).record hwithin (by simp)
      exact hentered.record hwithin (by simp)
  | blocked hp hdirs => exact (framed_makeDirectories hp hwithin hdirs).record hwithin (by simp)
  | @reused _ p s t hp hdirs hstate =>
      have hreused : x.Framed R s (t.record (.reused p.id)) :=
        (framed_makeDirectories hp hwithin hdirs).record hwithin (by simp)
      exact hreused.record hwithin (by simp)
  | refused hp hdirs hstate =>
      exact (framed_makeDirectories hp hwithin hdirs).record hwithin (by simp)
  | succeeded hp hdirs hstate hsteps ih =>
      exact ((framed_makeDirectories hp hwithin hdirs).trans (ih ⟨hp, hwithin⟩)).ended hwithin
        (.ok ())
  | @failed _ p _ _ _ e hp hdirs hstate hsteps ih =>
      exact ((framed_makeDirectories hp hwithin hdirs).trans (ih ⟨hp, hwithin⟩)).ended hwithin
        (.error e)
  | invalid hvalid => exact .refl _
  | ungenerated hvalid hgen => exact framed_generate hwithin.1 hwithin.2 hgen
  | interrupted hvalid hgen hlibs ih =>
      have hmarked := (framed_generate hwithin.1 hwithin.2 hgen).setState hwithin.2 .built
      exact hmarked.trans (ih (hclosed _ hwithin.1 hwithin.2))
  | produced hvalid hgen hlibs hown ih =>
      have hmarked := (framed_generate hwithin.1 hwithin.2 hgen).setState hwithin.2 .built
      exact (hmarked.trans (ih (hclosed _ hwithin.1 hwithin.2))).trans
        (framed_produce hwithin.1 hwithin.2 hown)
  | noLibrary => exact .refl _
  | nextLibrary hid hfirst hrest ihfirst ihrest =>
      exact (ihfirst (hwithin _ List.mem_cons_self)).trans
        (ihrest fun d hd => hwithin d (List.mem_cons_of_mem _ hd))
  | lostLibrary hid hfirst ih => exact ih (hwithin _ List.mem_cons_self)

/-- What an id reaches over libraries, with the id itself, holds what each of it links. -/
theorem linkClosed_reaches (r : Registry) (id : String) :
    LinkClosed r fun q => q = id ∨ r.Reaches linkEdges id q := by
  intro p hp hreach d hd
  rw [← Registry.edges_linkEdges hp] at hd
  rcases hreach with heq | hreach
  · exact .inr (.step (heq ▸ hd))
  · exact .inr (hreach.tail hd)

/-! ## Projects that are not accepted -/

/-- All that a build does for a project that is not built, whose directories can be made and
which is not accepted. -/
theorem outcome_build_of_invalid (hp : x.registry.get? p.id = some p)
    (hstate : s.states p.id = .notBuilt)
    (hdirs : (x.backend.run (directoryCalls p) s.world).failure = none) {e : BuildError}
    (hinvalid : x.validate p = .error e) :
    (x.build p.id).outcome s = (.error e, {
      states := fun q => if q = p.id then .failed else s.states q
      stats := { s.stats with projectsFailed := s.stats.projectsFailed + 1 }
      trace := s.trace ++ refusal p
      world := (x.backend.run (directoryCalls p) s.world).world }) := by
  have hcall := (x.runs_build p.id s).callOutcome hp
  rw [outcome_makeDirectories] at hcall
  simp only [Session.record, CallRun.result, hdirs, Backend.made_of_ok hdirs, CallOutcome,
    hstate] at hcall
  obtain ⟨v, hsteps, hend⟩ := hcall
  obtain ⟨hresult, rfl⟩ := hsteps.of_invalid hinvalid
  rw [hresult] at hend
  refine Prod.ext hresult (hend.trans ?_)
  simp [Session.ended, Session.fail, Session.setState, refusal, directoryCalls]

/-- A project that is of no known kind or lacks a closure is not accepted. -/
theorem exists_validate_eq_error
    (h : p.kind.isBuildable = false ∨ (∀ closure, x.registry.linkClosure p.id ≠ .ok closure) ∨
      ∀ closure, x.registry.headerClosure p.id ≠ .ok closure) :
    ∃ e, x.validate p = .error e := by
  cases hvalid : x.validate p with
  | error e => exact ⟨e, rfl⟩
  | ok _ =>
      obtain ⟨hkind, ⟨links, hlinks⟩, headers, hheaders⟩ := validate_eq_ok_iff.1 hvalid
      rcases h with hunknown | hnone | hnone
      · cases hkind.symm.trans hunknown
      · exact absurd hlinks (hnone links)
      · exact absurd hheaders (hnone headers)

/-- The frame of a build.  It changes the states of no projects but the one that is asked for
and those that this reaches over libraries, and everything it does, it does for one of these;
what they reach over includes alone enters their calls by its header directory only.  If the
project is not built, its directories can be made, and its kind or one of its closures is
rejected, then all that happens is that its directories are made, and that it fails, is counted
and told to have failed. -/
theorem build_frame (x : BuildSetup σ) (id : String) (s : Session σ) :
    (∀ q, ¬ (q = id ∨ x.registry.Reaches linkEdges id q) →
      ((x.build id).outcome s).2.states q = s.states q) ∧
    (∃ entries, ((x.build id).outcome s).2.trace = s.trace ++ entries ∧ ∀ entry ∈ entries,
      (entry.project = id ∨ x.registry.Reaches linkEdges id entry.project) ∧
      ∀ q call, entry = .call q call → ∃ p, x.registry.get? q = some p ∧ x.MadeFor p call) ∧
    ∀ p, x.registry.get? id = some p → s.states id = .notBuilt →
      (x.backend.run [.makeDirectory p.objDir, .makeDirectory p.binDir] s.world).failure = none →
      (p.kind.isKnown = false ∨ (∀ closure, x.registry.linkClosure id ≠ .ok closure) ∨
        ∀ closure, x.registry.headerClosure id ≠ .ok closure) →
      ∃ e, (x.build id).outcome s = (.error e, {
        states := fun q => if q = id then .failed else s.states q
        stats := { s.stats with projectsFailed := s.stats.projectsFailed + 1 }
        trace := s.trace ++ [.entered id, .call id (.makeDirectory p.objDir),
          .call id (.makeDirectory p.binDir), .event (.finished id false), .left id]
        world := (x.backend.run [.makeDirectory p.objDir, .makeDirectory p.binDir]
          s.world).world }) := by
  have hframed := (x.runs_build id s).framed (linkClosed_reaches x.registry id) (.inl rfl)
  refine ⟨hframed.states, hframed.trace, fun p hp hstate hdirs hrejected => ?_⟩
  obtain rfl := Registry.id_of_get? hp
  obtain ⟨e, hinvalid⟩ := exists_validate_eq_error hrejected
  exact ⟨e, outcome_build_of_invalid hp hstate hdirs hinvalid⟩

end BuildSetup

/-! ## A sample -/

namespace Sample

/-- An application that links a library and uses the headers of a project that is nowhere. -/
def haunted : Project :=
  { id := "shell", kind := .application, root := Path.ofString "shell", libs := ["core"],
    includes := ["ghost"] }

/-- The application and its library, with a toolchain that never fails. -/
def hauntedSetup : BuildSetup Unit where
  registry :=
    ⟨[{ id := "core", kind := .library, root := Path.ofString "core" }, haunted], by decide⟩
  backend := setup.backend

/-- The application fails after its own directories are made, and its library is not entered. -/
theorem haunted_refused :
    (hauntedSetup.registry.get? "shell" = some haunted ∧
      (hauntedSetup.backend.run [.makeDirectory haunted.objDir, .makeDirectory haunted.binDir]
        ()).failure = none ∧
      ∀ closure, hauntedSetup.registry.headerClosure "shell" ≠ .ok closure) ∧
    ((hauntedSetup.build "shell").outcome { world := () }).2.trace =
      [.entered "shell", .call "shell" (.makeDirectory haunted.objDir),
        .call "shell" (.makeDirectory haunted.binDir), .event (.finished "shell" false),
        .left "shell"] ∧
    ((hauntedSetup.build "shell").outcome { world := () }).2.states "core" = .notBuilt := by
  have hclosure : ∀ closure, hauntedSetup.registry.headerClosure "shell" ≠ .ok closure := by
    intro closure h
    have herror : hauntedSetup.registry.headerClosure "shell" =
        .error (.unresolvedDependency "shell" "ghost") := by cbv
    rw [herror] at h
    cases h
  have hp : hauntedSetup.registry.get? "shell" = some haunted := by cbv
  obtain ⟨-, -, hrefused⟩ := BuildSetup.build_frame hauntedSetup "shell" { world := () }
  obtain ⟨e, houtcome⟩ := hrefused haunted hp rfl rfl (.inr (.inr hclosure))
  rw [houtcome]
  exact ⟨⟨hp, rfl, hclosure⟩, rfl, rfl⟩

end Sample

end NativeBuild
