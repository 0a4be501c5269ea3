import NativeBuild.Dependency.Closure
import NativeBuild.Plan.Unit

/-!
# Plans

Everything needed to compile and link one project: its units, where headers are
searched, which archives are linked, and the output.

Main definitions:

- `Registry.includePaths` and `Registry.libraries`: the search order and the link set.
- `ArtifactPlan` and `Registry.planWith`: the plan of a project with given sources.

Main results:

- Theorem `mem_distinct`: dropping repeated paths loses none up to equality by
  components.
- Theorem `distinct_pairwise`: it leaves no two that are the same.
-/

namespace NativeBuild

/-! ## Repeated paths -/

/-- The paths without those that are the same as an earlier one. -/
def distinct : List Path → List Path
  | [] => []
  | path :: rest => path :: (distinct rest).filter fun other => !path.same other

/-- No two of the remaining paths are the same. -/
theorem distinct_pairwise (paths : List Path) :
    (distinct paths).Pairwise fun a b => a.same b = false := by
  induction paths with
  | nil => exact .nil
  | cons path rest ih =>
    refine List.pairwise_cons.2 ⟨fun other hother => ?_, ih.filter _⟩
    simpa using (List.mem_filter.1 hother).2

/-- Every path stays, or one that is the same. -/
theorem mem_distinct {paths : List Path} {path : Path} (h : path ∈ paths) :
    ∃ kept ∈ distinct paths, kept.same path = true := by
  induction paths with
  | nil => cases h
  | cons first rest ih =>
    rcases List.mem_cons.1 h with rfl | h
    · exact ⟨path, List.mem_cons_self, path.same_refl⟩
    · obtain ⟨kept, hkept, hsame⟩ := ih h
      by_cases hfirst : first.same kept = true
      · refine ⟨first, List.mem_cons_self, ?_⟩
        rw [Path.same_iff] at hfirst hsame ⊢
        rw [hfirst, hsame]
      · refine ⟨kept, List.mem_cons_of_mem _ (List.mem_filter.2 ⟨hkept, ?_⟩), hsame⟩
        simpa using hfirst

/-- Dropping repeated paths adds none. -/
theorem mem_of_mem_distinct {paths : List Path} {path : Path} (h : path ∈ distinct paths) :
    path ∈ paths := by
  induction paths with
  | nil => cases h
  | cons first rest ih =>
    rcases List.mem_cons.1 h with rfl | h
    · exact List.mem_cons_self
    · exact List.mem_cons_of_mem _ (ih (List.mem_filter.1 h).1)

namespace Registry

/-! ## Search order and link set -/

/-- Where headers are searched: the project's own headers, its generated ones, those of
its link closure, those of its header closure; each directory once. -/
def includePaths (r : Registry) (p : Project) : Except BuildError (List Path) := do
  let links ← r.linkClosure p.id
  let headers ← r.headerClosure p.id
  let deps ← (links ++ headers).mapM (r.dependency p.id)
  return distinct (p.includeDir :: p.objDir :: deps.map (·.includeDir))

/-- The archive of a project, if it is a library. -/
def archive? (dep : Project) : Option Path :=
  if dep.kind = .library then dep.output? else none

/-- The archives to link: those of the libraries in the link closure, in its order. -/
def libraries (r : Registry) (p : Project) : Except BuildError (List Path) := do
  let links ← r.linkClosure p.id
  let deps ← links.mapM (r.dependency p.id)
  return deps.filterMap archive?

end Registry

/-! ## Plans -/

/-- Everything needed to compile and link one project. -/
structure ArtifactPlan where
  project : String
  kind : ProjectKind
  units : List CompilationUnit
  includePaths : List Path
  libraries : List Path
  output : Path
deriving DecidableEq, Repr

/-- The objects of a plan, in the order of its units. -/
def ArtifactPlan.objects (plan : ArtifactPlan) : List Path :=
  plan.units.map (·.object)

/-- The output of a project that must have one. -/
def Project.requireOutput (p : Project) : Except BuildError Path :=
  match p.output? with
  | some output => .ok output
  | none => .error (.invalidProject p.id "unknown project type has no output")

/-- The plan of a project with the given output and sources. -/
def Registry.planWith (r : Registry) (p : Project) (output : Path) (sources : List Path) :
    Except BuildError ArtifactPlan := do
  let includePaths ← r.includePaths p
  let libraries ← r.libraries p
  return {
    project := p.id
    kind := p.kind
    units := p.units sources
    includePaths
    libraries
    output }

/-- The plan of a project in a file system. -/
def Registry.plan (r : Registry) (fs : FileSystem) (p : Project) :
    Except BuildError ArtifactPlan := do
  let output ← p.requireOutput
  let sources ← (discoverSources fs p.sourceDir).mapError .walkFault
  r.planWith p output sources

end NativeBuild
