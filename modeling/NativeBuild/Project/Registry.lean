import NativeBuild.Project.Basic

/-!
# The registry of projects

The projects of a workspace, each id once, ordered by their ids.

Main definitions:

- `Registry`: the projects with their order.
- `Registry.insert`: adding a project under a new id.
- `Registry.ofDefinitions`: the registry of some manifests.

Main results:

- Theorem `get?_eq_some_iff`: look-up finds exactly the members.
- Theorem `get?_insert`: what inserting does to look-up.
-/

namespace NativeBuild

/-- The projects of a workspace, by strictly increasing ids. -/
@[ext] structure Registry where
  projects : List Project
  sorted : projects.Pairwise fun a b => a.id < b.id

namespace Registry

/-! ## Look-up -/

/-- The registry without projects. -/
def empty : Registry := ⟨[], .nil⟩

/-- The ids of the projects. -/
def ids (r : Registry) : List String :=
  r.projects.map (·.id)

/-- The number of projects. -/
def size (r : Registry) : Nat :=
  r.projects.length

/-- The project with an id. -/
def get? (r : Registry) (id : String) : Option Project :=
  r.projects.find? fun p => p.id == id

/-- The id is registered. -/
def contains (r : Registry) (id : String) : Bool :=
  (r.get? id).isSome

/-- The project with an id that a user asks for. -/
def require (r : Registry) (id : String) : Except BuildError Project :=
  match r.get? id with
  | some p => .ok p
  | none => .error (.projectNotFound id)

/-- The project with an id that another project depends on. -/
def dependency (r : Registry) (project id : String) : Except BuildError Project :=
  match r.get? id with
  | some p => .ok p
  | none => .error (.unresolvedDependency project id)

/-! ## Inserting -/

/-- The projects with one more, before the first that has a greater id. -/
def place (p : Project) : List Project → List Project
  | [] => [p]
  | q :: rest => if p.id < q.id then p :: q :: rest else q :: place p rest

/-- A project is placed among the others, and all of them stay. -/
theorem mem_place {p q : Project} {projects : List Project} :
    q ∈ place p projects ↔ q = p ∨ q ∈ projects := by
  induction projects with
  | nil => simp [place]
  | cons first rest ih =>
    simp only [place]
    split
    · simp
    · simp only [List.mem_cons, ih]
      constructor
      · rintro (h | h | h) <;> simp [h]
      · rintro (h | h | h) <;> simp [h]

/-- A project with a fresh id is placed in order. -/
theorem sorted_place {p : Project} {projects : List Project}
    (sorted : projects.Pairwise fun a b => a.id < b.id)
    (fresh : ∀ q ∈ projects, q.id ≠ p.id) :
    (place p projects).Pairwise fun a b => a.id < b.id := by
  induction projects with
  | nil => simp [place]
  | cons first rest ih =>
    obtain ⟨below, sorted⟩ := List.pairwise_cons.1 sorted
    simp only [place]
    split
    · rename_i h
      refine List.pairwise_cons.2 ⟨fun q hq => ?_, List.pairwise_cons.2 ⟨below, sorted⟩⟩
      rcases List.mem_cons.1 hq with rfl | hq
      · exact h
      · exact String.lt_trans h (below q hq)
    · rename_i h
      refine List.pairwise_cons.2
        ⟨fun q hq => ?_, ih sorted fun q hq => fresh q (List.mem_cons_of_mem _ hq)⟩
      rcases mem_place.1 hq with rfl | hq
      · have le : first.id ≤ q.id := String.not_lt.1 h
        have ne : first.id ≠ q.id := fresh first List.mem_cons_self
        by_cases lt : first.id < q.id
        · exact lt
        · exact absurd (String.le_antisymm le (String.not_lt.1 lt)) ne
      · exact below q hq

/-- An id that is not found is that of no project. -/
theorem ne_of_get?_eq_none {r : Registry} {id : String} (h : r.get? id = none) :
    ∀ q ∈ r.projects, q.id ≠ id := by
  intro q hq
  have := List.find?_eq_none.1 h q hq
  simpa using this

/-- The registry with one more project; its id must be new. -/
def insert (r : Registry) (p : Project) : Except BuildError Registry :=
  match h : r.get? p.id with
  | some existing => .error (.duplicateProject p.id existing.origin p.origin)
  | none => .ok ⟨place p r.projects, sorted_place r.sorted (ne_of_get?_eq_none h)⟩

/-- The registry with several more projects, one after another. -/
def insertAll (r : Registry) (projects : List Project) : Except BuildError Registry :=
  projects.foldlM insert r

/-- The registry of the projects that some manifests define. -/
def ofDefinitions (definitions : List Definition) : Except BuildError Registry :=
  definitions.foldlM (fun r definition => do r.insert (← Project.ofDefinition definition)) empty

/-- The registry of the projects of a workspace. -/
def load (w : Workspace) (fs : FileSystem) : Except BuildError Registry :=
  match w.discover fs with
  | .ok definitions => ofDefinitions definitions
  | .error error => .error (.config error)

/-! ## Laws -/

/-- Members of a registry with the same id are the same. -/
theorem eq_of_id_eq {r : Registry} {p q : Project} (hp : p ∈ r.projects) (hq : q ∈ r.projects)
    (h : p.id = q.id) : p = q := by
  have key : ∀ {projects : List Project},
      projects.Pairwise (fun a b => a.id < b.id) → p ∈ projects → q ∈ projects → p = q := by
    intro projects sorted hp hq
    induction projects with
    | nil => cases hp
    | cons first rest ih =>
      obtain ⟨below, sorted⟩ := List.pairwise_cons.1 sorted
      rcases List.mem_cons.1 hp with rfl | hp'
      · rcases List.mem_cons.1 hq with rfl | hq'
        · rfl
        · exact absurd (h ▸ below q hq') (String.lt_irrefl _)
      · rcases List.mem_cons.1 hq with rfl | hq'
        · exact absurd (h ▸ below p hp') (String.lt_irrefl _)
        · exact ih sorted hp' hq'
  exact key r.sorted hp hq

/-- Look-up finds exactly the members. -/
theorem get?_eq_some_iff {r : Registry} {id : String} {p : Project} :
    r.get? id = some p ↔ p ∈ r.projects ∧ p.id = id := by
  constructor
  · intro h
    exact ⟨List.mem_of_find?_eq_some h, by simpa using List.find?_some h⟩
  · rintro ⟨hp, rfl⟩
    cases hq : r.get? p.id with
    | none => exact absurd rfl (ne_of_get?_eq_none hq p hp)
    | some q =>
      have hm : q ∈ r.projects := List.mem_of_find?_eq_some hq
      have hid : q.id = p.id := by simpa using List.find?_some hq
      rw [eq_of_id_eq hm hp hid]

/-- A project is found under its own id only. -/
theorem id_of_get? {r : Registry} {id : String} {p : Project} (h : r.get? id = some p) :
    p.id = id :=
  (get?_eq_some_iff.1 h).2

/-- The registered ids are those that are found. -/
theorem mem_ids_iff {r : Registry} {id : String} : id ∈ r.ids ↔ ∃ p, r.get? id = some p := by
  simp [ids, get?_eq_some_iff]

/-- What inserting does to look-up. -/
theorem get?_insert {r s : Registry} {p : Project} (h : r.insert p = .ok s) (id : String) :
    s.get? id = if id = p.id then some p else r.get? id := by
  unfold insert at h
  split at h
  · cases h
  · rename_i fresh
    cases h
    apply Option.ext
    intro q
    rw [get?_eq_some_iff, mem_place]
    split
    · rename_i hid
      subst hid
      constructor
      · rintro ⟨rfl | hq, hid⟩
        · rfl
        · exact absurd hid (ne_of_get?_eq_none fresh q hq)
      · intro hq
        cases hq
        exact ⟨.inl rfl, rfl⟩
    · rename_i hne
      rw [get?_eq_some_iff]
      constructor
      · rintro ⟨rfl | hq, hid⟩
        · exact absurd hid.symm hne
        · exact ⟨hq, hid⟩
      · rintro ⟨hq, hid⟩
        exact ⟨.inr hq, hid⟩

end Registry

end NativeBuild
