import NativeBuild.Proofs.Build.Invariant
import NativeBuild.Proofs.Build.Script
import NativeBuild.Proofs.Plan.Dependencies

/-!
# The calls of a build

What a build may leave in the trace, entry by entry.  It removes nothing and forgets
nothing, and whatever it compiles or links for a project it does as the project is planned:
with the header directories and the archives that the registry gives.

Main definitions:

- `BuildSetup.LeftByBuild`: an entry that a build may leave.
- `BuildSetup.Grown`: a session that comes from another one by such entries.

Main results:

- Theorem `grown_produce`: what producing a project leaves.
- Theorem `grown_build`: what building a project from outside leaves.
-/

namespace NativeBuild

/-! ## Entries of a script -/

/-- A script of units holds calls for units and their news. -/
theorem mem_unitScript {p : Project} {plan : ArtifactPlan} {done : Nat}
    {units : List CompilationUnit} {entry : TraceEntry} (h : entry ∈ unitScript p plan done units) :
    (∃ unit ∈ units, ∃ call ∈ unitCalls p plan unit, entry = .call p.id call) ∨
      ∃ k, entry = .event (.unitFinished p.id k plan.units.length) := by
  induction units generalizing done with
  | nil => cases h
  | cons unit rest ih =>
      rcases List.mem_append.1 h with h | h
      · obtain ⟨call, hcall, rfl⟩ := List.mem_map.1 h
        exact .inl ⟨unit, List.mem_cons_self, call, hcall, rfl⟩
      · rcases List.mem_cons.1 h with rfl | h
        · exact .inr ⟨_, rfl⟩
        · obtain ⟨other, hother, hcall⟩ | hnews := ih h
          · exact .inl ⟨other, List.mem_cons_of_mem _ hother, hcall⟩
          · exact .inr hnews

/-- The calls for a unit make a directory, compile as planned, or assemble. -/
theorem mem_unitCalls {p : Project} {plan : ArtifactPlan} {unit : CompilationUnit}
    {call : ToolCall} (h : call ∈ unitCalls p plan unit) :
    (∃ directory, call = .makeDirectory directory) ∨
      call = .compile unit.source unit.object plan.includePaths [] p.strict ∨
      call = .assemble unit.source unit.object := by
  have hown : BuildSetup.unitCall p plan unit =
      .compile unit.source unit.object plan.includePaths [] p.strict ∨
      BuildSetup.unitCall p plan unit = .assemble unit.source unit.object := by
    unfold BuildSetup.unitCall
    cases unit.language with
    | c => exact .inl rfl
    | assembly => exact .inr rfl
  unfold unitCalls at h
  split at h
  · rcases List.mem_cons.1 h with rfl | h
    · exact .inl ⟨_, rfl⟩
    · exact .inr (List.mem_singleton.1 h ▸ hown)
  · exact .inr (List.mem_singleton.1 h ▸ hown)

namespace BuildSetup

open Build Session

variable {σ : Type} (x : BuildSetup σ)

/-- The calls for an output archive, link as planned, or disassemble. -/
theorem mem_linkCalls {p : Project} {plan : ArtifactPlan} {call : ToolCall}
    (h : call ∈ x.linkCalls p plan) :
    call = .archive plan.objects plan.output ∨
      (∃ script, call = .link plan.objects plan.libraries plan.output script) ∨
      ∃ listing, call = .disassemble plan.output listing := by
  unfold linkCalls at h
  split at h
  · exact .inl (List.mem_singleton.1 h)
  · exact .inr (.inl ⟨_, List.mem_singleton.1 h⟩)
  · rcases List.mem_cons.1 h with rfl | h
    · exact .inr (.inl ⟨_, rfl⟩)
    · obtain ⟨listing, -, rfl⟩ := by simpa using h
      exact .inr (.inr ⟨listing, rfl⟩)
  · cases h

/-! ## Entries of a build -/

/-- An entry that a build may leave: calls to compile and to link are as the registry has it
for the project, nothing is removed and nothing is forgotten. -/
def LeftByBuild : TraceEntry → Prop
  | .call id (.compile _ _ includePaths _ _) =>
    ∃ p, x.registry.get? id = some p ∧ x.registry.includePaths p = .ok includePaths
  | .call id (.link _ libraries _ _) =>
    ∃ p, x.registry.get? id = some p ∧ x.registry.libraries p = .ok libraries
  | .call _ (.removeDirectoryTree _) => False
  | .cleaned _ => False
  | _ => True

end BuildSetup

namespace Registry

/-- A plan has the header directories and the archives that the registry gives. -/
theorem planWith_eq_ok {r : Registry} {p : Project} {output : Path} {sources : List Path}
    {plan : ArtifactPlan} (h : r.planWith p output sources = .ok plan) :
    r.includePaths p = .ok plan.includePaths ∧ r.libraries p = .ok plan.libraries ∧
      plan.output = output ∧ plan.units = p.units sources := by
  unfold planWith at h
  cases hpaths : r.includePaths p with
  | error e =>
      rw [hpaths] at h
      cases h
  | ok paths =>
      cases hlibraries : r.libraries p with
      | error e =>
          rw [hpaths, hlibraries] at h
          cases h
      | ok libraries =>
          rw [hpaths, hlibraries] at h
          cases h
          exact ⟨rfl, rfl, rfl, rfl⟩

/-- The archives that are linked are those of registered libraries of the link closure. -/
theorem mem_libraries {r : Registry} {p : Project} {libraries : List Path}
    (h : r.libraries p = .ok libraries) :
    ∃ closure, r.linkClosure p.id = .ok closure ∧ ∀ library ∈ libraries,
      ∃ dep, dep.id ∈ closure ∧ r.get? dep.id = some dep ∧ archive? dep = some library := by
  obtain ⟨closure, hclosure, rfl⟩ := libraries_eq_ok_iff.1 h
  refine ⟨closure, hclosure, fun library hlibrary => ?_⟩
  obtain ⟨id, hid, dep, hdep, harchive⟩ := mem_archives.1 hlibrary
  obtain rfl := id_of_get? hdep
  exact ⟨dep, hid, hdep, harchive⟩

/-- Headers are searched below the project itself and in the header directories of what it
reaches over libraries and includes. -/
theorem mem_includePaths {r : Registry} {p : Project} {paths : List Path}
    (h : r.includePaths p = .ok paths) {path : Path} (hpath : path ∈ paths) :
    path = p.includeDir ∨ path = p.objDir ∨
      ∃ dep, r.get? dep.id = some dep ∧ r.Reaches headerEdges p.id dep.id ∧
        path = dep.includeDir := by
  obtain ⟨links, headers, hlinks, hheaders, rfl⟩ := includePaths_eq_ok_iff.1 h
  rcases List.mem_cons.1 (mem_of_mem_distinct hpath) with rfl | hrest
  · exact .inl rfl
  · rcases List.mem_cons.1 hrest with rfl | hrest
    · exact .inr (.inl rfl)
    · obtain ⟨id, hid, dep, hdep, rfl⟩ := mem_includeDirs.1 hrest
      obtain rfl := id_of_get? hdep
      refine .inr (.inr ⟨dep, hdep, ?_, rfl⟩)
      rcases List.mem_append.1 hid with hlink | hheader
      · exact ((mem_linkClosure_iff hlinks).1 hlink).headers
      · exact ((mem_headerClosure_iff hheaders).1 hheader).2

end Registry

namespace BuildSetup

open Build Session

variable {σ : Type} {x : BuildSetup σ}

/-- A script of a registered project holds entries that a build may leave. -/
theorem leftByBuild_of_mem_script {p : Project} {output : Path} {sources : List Path}
    {plan : ArtifactPlan} (hp : x.registry.get? p.id = some p)
    (hplan : x.registry.planWith p output sources = .ok plan) {entry : TraceEntry}
    (h : entry ∈ x.script p plan) : x.LeftByBuild entry := by
  obtain ⟨hpaths, hlibraries, -⟩ := Registry.planWith_eq_ok hplan
  rcases List.mem_append.1 h with h | h
  · rcases List.mem_cons.1 h with rfl | h
    · trivial
    · obtain ⟨unit, -, call, hcall, rfl⟩ | ⟨k, rfl⟩ := mem_unitScript h
      · obtain ⟨_, rfl⟩ | rfl | rfl := mem_unitCalls hcall
        · trivial
        · exact ⟨p, hp, hpaths⟩
        · trivial
      · trivial
  · obtain ⟨call, hcall, rfl⟩ := List.mem_map.1 h
    obtain rfl | ⟨_, rfl⟩ | ⟨_, rfl⟩ := x.mem_linkCalls hcall
    · trivial
    · exact ⟨p, hp, hlibraries⟩
    · trivial

/-! ## Sessions after a build -/

/-- The second session comes from the first by entries that a build may leave. -/
def Grown (x : BuildSetup σ) (s t : Session σ) : Prop :=
  ∃ entries, t.trace = s.trace ++ entries ∧ ∀ entry ∈ entries, x.LeftByBuild entry

variable {s t u : Session σ}

/-- A session comes from itself by no entries. -/
theorem Grown.refl (s : Session σ) : x.Grown s s :=
  Adds.refl s

/-- A session may grow further. -/
theorem Grown.trans (hst : x.Grown s t) (htu : x.Grown t u) : x.Grown s u :=
  Adds.trans hst htu

/-- One more entry that a build may leave. -/
theorem Grown.concat (h : x.Grown s t) {entry : TraceEntry}
    (htrace : u.trace = t.trace ++ [entry]) (hentry : x.LeftByBuild entry) : x.Grown s u :=
  Adds.concat h htrace hentry

/-- An action along a script of such entries leaves no others. -/
theorem grown_of_follows {α : Type} {script : List TraceEntry} {action : Build σ α}
    (h : Follows script action) (hscript : ∀ entry ∈ script, x.LeftByBuild entry)
    {result : Except BuildError α} (houtcome : action.outcome s = (result, t)) :
    x.Grown s t :=
  adds_of_follows h hscript houtcome

/-- Producing a registered project leaves what a build may leave. -/
theorem grown_produce {p : Project} (hp : x.registry.get? p.id = some p)
    {result : Except BuildError Unit} (houtcome : (x.produce p).outcome s = (result, t)) :
    x.Grown s t := by
  have hscan : ∀ entry ∈ [TraceEntry.scan p.id], x.LeftByBuild entry := by
    intro entry hentry
    rw [List.mem_singleton.1 hentry]
    trivial
  unfold produce at houtcome
  rcases hplan : (x.plan p).outcome s with ⟨e | plan, u⟩
  · rw [outcome_bind_of_error hplan] at houtcome
    cases houtcome
    exact grown_of_follows (x.follows_plan p) hscan hplan
  · rw [outcome_bind_of_ok hplan] at houtcome
    obtain ⟨output, sources, -, hplanned⟩ := x.outcome_plan_eq_ok p hplan
    have hscript : ∀ entry ∈ x.script p plan, x.LeftByBuild entry :=
      fun entry hentry => leftByBuild_of_mem_script hp hplanned hentry
    exact (grown_of_follows (x.follows_plan p) hscan hplan).trans
      (grown_of_follows (x.follows_carryOut p plan) hscript houtcome)

/-- Making the directories of a project leaves what a build may leave. -/
theorem grown_makeDirectories {p : Project} {result : Except BuildError Unit}
    (houtcome : (x.makeDirectories p).outcome s = (result, t)) : x.Grown s t :=
  grown_of_follows (x.follows_makeDirectories p) (by simp [LeftByBuild]) houtcome

/-- Generating the files of a project leaves what a build may leave. -/
theorem grown_generate {p : Project} {result : Except BuildError Unit}
    (houtcome : (x.generate p).outcome s = (result, t)) : x.Grown s t :=
  grown_of_follows (x.follows_generate p) (by simp [LeftByBuild]) houtcome

/-- From any session, every step of a build leaves what a build may leave. -/
theorem stepInvariant_grown (x : BuildSetup σ) (start : Session σ) :
    x.StepInvariant fun _ _ s => x.Grown start s where
  entered h _ := h.concat rfl trivial
  left h := h.concat rfl trivial
  directories h hdirs := h.trans (grown_makeDirectories hdirs)
  reused h _ _ := h.concat rfl trivial
  begun h _ _ _ := h
  generated h _ hgen := h.trans (grown_generate hgen)
  marked h := h
  produced h hp _ hown := h.trans (grown_produce hp hown)
  succeeded _ h _ _ _ := h.concat rfl trivial
  failed h _ _ := h.concat rfl trivial

/-- A build leaves what a build may leave. -/
theorem grown_build (x : BuildSetup σ) (id : String) (s : Session σ) :
    x.Grown s ((x.build id).outcome s).2 :=
  (x.stepInvariant_grown s).build id s (.refl s)

end BuildSetup

end NativeBuild
