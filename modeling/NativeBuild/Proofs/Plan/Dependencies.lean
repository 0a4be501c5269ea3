import NativeBuild.Plan.Basic
import NativeBuild.Proofs.Dependency.HeaderClosure
import NativeBuild.Proofs.Dependency.LinkClosure
import NativeBuild.Proofs.Traversal

/-!
# What plans take from other projects

A plan searches headers in the directories of both closures of its project, and it links the
archives of one of them.  The ids of a closure are registered, so nothing else can be missing: where
there are both closures there is a plan, whatever the sources are.

Main definitions:

- `Registry.includeDirs` and `Registry.archives`: the header directories and the archives of ids.

Main results:

- Theorem `Registry.includePaths_eq_ok_iff`: the search order, by both closures.
- Theorem `Registry.libraries_eq_ok_iff`: the link set, by the link closure.
- Theorem `Registry.exists_planWith`: a project with both closures can be planned.
-/

namespace NativeBuild

namespace Registry

variable {r : Registry} {p : Project} {ids links headers : List String}

/-! ## Looking up dependencies -/

/-- A dependency is found exactly when it is registered. -/
theorem dependency_eq_ok_iff {project id : String} {dep : Project} :
    r.dependency project id = .ok dep ↔ r.get? id = some dep := by
  unfold dependency
  cases r.get? id <;> simp

/-- Dependencies are looked up when all of them are registered. -/
theorem exists_mapM_dependency (project : String) (h : ∀ id ∈ ids, r.Usable id) :
    ∃ deps, ids.mapM (r.dependency project) = .ok deps :=
  exists_mapM_eq_ok fun id hid => by
    obtain ⟨dep, hdep, -⟩ := h id hid
    exact ⟨dep, dependency_eq_ok_iff.2 hdep⟩

/-- What dependencies that are looked up give is what the registered ones of the ids give. -/
theorem filterMap_of_mapM {α : Type} {project : String} {deps : List Project}
    (h : ids.mapM (r.dependency project) = .ok deps) (f : Project → Option α) :
    deps.filterMap f = ids.filterMap fun id => (r.get? id).bind f := by
  induction mapM_eq_ok_iff.1 h with
  | nil => rfl
  | cons hfirst hrest ih =>
      rw [List.filterMap_cons, List.filterMap_cons, ih (mapM_eq_ok_iff.2 hrest),
        dependency_eq_ok_iff.1 hfirst]
      rfl

/-- The ids of a link closure are registered. -/
theorem usable_of_mem_linkClosure (hlinks : r.linkClosure p.id = .ok links) :
    ∀ id ∈ links, r.Usable id :=
  fun id hid => (linkClosure_eq_ok_iff.1 hlinks).2.usable id hid

/-- So are those of both closures. -/
theorem usable_of_mem_closures (hlinks : r.linkClosure p.id = .ok links)
    (hheaders : r.headerClosure p.id = .ok headers) : ∀ id ∈ links ++ headers, r.Usable id :=
  fun id hid => (List.mem_append.1 hid).elim (usable_of_mem_linkClosure hlinks id)
    ((headerClosure_eq_ok_iff.1 hheaders).2.usable id)

/-! ## Search order and link set -/

/-- The header directories of those of the ids that are registered. -/
def includeDirs (r : Registry) (ids : List String) : List Path :=
  ids.filterMap fun id => (r.get? id).map (·.includeDir)

/-- The archives of those of the ids that are libraries. -/
def archives (r : Registry) (ids : List String) : List Path :=
  ids.filterMap fun id => (r.get? id).bind archive?

/-- The header directories of ids are those of their projects. -/
theorem mem_includeDirs {path : Path} :
    path ∈ r.includeDirs ids ↔ ∃ id ∈ ids, ∃ dep, r.get? id = some dep ∧ path = dep.includeDir := by
  simp [includeDirs, Option.map_eq_some_iff, @eq_comm _ path]

/-- The include directories of two lists are those of the first and those of the second. -/
theorem includeDirs_append (r : Registry) (ids more : List String) :
    r.includeDirs (ids ++ more) = r.includeDirs ids ++ r.includeDirs more :=
  List.filterMap_append

/-- The archives of ids are those of their projects. -/
theorem mem_archives {library : Path} :
    library ∈ r.archives ids ↔
      ∃ id ∈ ids, ∃ dep, r.get? id = some dep ∧ archive? dep = some library := by
  simp [archives, Option.bind_eq_some_iff]

/-- There is a search order when there are both closures; it is then that of the header directories
of their members, after those of the project itself. -/
theorem includePaths_eq_ok_iff {paths : List Path} :
    r.includePaths p = .ok paths ↔ ∃ links headers,
      r.linkClosure p.id = .ok links ∧ r.headerClosure p.id = .ok headers ∧
        paths = distinct (p.includeDir :: p.objDir :: r.includeDirs (links ++ headers)) := by
  unfold includePaths
  cases hlinks : r.linkClosure p.id with
  | error e => simp [bind, Except.bind]
  | ok links =>
      cases hheaders : r.headerClosure p.id with
      | error e => simp [bind, Except.bind]
      | ok headers =>
          obtain ⟨deps, hdeps⟩ :=
            exists_mapM_dependency p.id (usable_of_mem_closures hlinks hheaders)
          have hdirs : deps.map (·.includeDir) = r.includeDirs (links ++ headers) := by
            rw [← List.filterMap_eq_map, filterMap_of_mapM hdeps]
            simp [includeDirs, Option.map_eq_bind]
          simp [hdeps, hdirs, bind, Except.bind, pure, Except.pure, eq_comm]

/-- There is a link set when there is a link closure; it is then made of its archives. -/
theorem libraries_eq_ok_iff {libraries : List Path} :
    r.libraries p = .ok libraries ↔
      ∃ links, r.linkClosure p.id = .ok links ∧ libraries = r.archives links := by
  unfold Registry.libraries
  cases hlinks : r.linkClosure p.id with
  | error e => simp [bind, Except.bind]
  | ok links =>
      obtain ⟨deps, hdeps⟩ := exists_mapM_dependency p.id (usable_of_mem_linkClosure hlinks)
      simp [hdeps, filterMap_of_mapM hdeps, archives, bind, Except.bind, pure, Except.pure, eq_comm]

/-- A project with both closures can be planned, whatever its sources are. -/
theorem exists_planWith (hlinks : r.linkClosure p.id = .ok links)
    (hheaders : r.headerClosure p.id = .ok headers) (output : Path) (sources : List Path) :
    ∃ plan, r.planWith p output sources = .ok plan := by
  have hpaths := includePaths_eq_ok_iff.2 ⟨links, headers, hlinks, hheaders, rfl⟩
  have hlibraries := libraries_eq_ok_iff.2 ⟨links, hlinks, rfl⟩
  simp [planWith, hpaths, hlibraries, bind, Except.bind, pure, Except.pure]

end Registry

end NativeBuild
