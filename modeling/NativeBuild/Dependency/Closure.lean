import NativeBuild.Dependency.Reachable

/-!
# Dependency closures

Two closures of a project, neither of which holds the project itself:

- the *link closure* follows the libraries and lists dependencies before those that
  depend on them, the order in which archives are built;
- the *header closure* follows libraries and includes and lists ids as they are met.
  It only feeds the search for headers, so cycles do no harm.

Both extend a list of ids that is given; ids already in it are not entered again.  The
list keeps what was added when an extension fails.

Main definitions:

- `Registry.extendLink` and `Registry.linkClosure`.
- `Registry.extendHeaders` and `Registry.headerClosure`.

Both recursions end because every step down leaves one registered id fewer that is not
on the path, or not in the list.
-/

namespace NativeBuild

/-- A list of ids that grows; it survives a failure. -/
abbrev Extension (α : Type) := EStateM BuildError (List String) α

namespace Registry

/-! ## Looking up dependencies -/

/-- Look up a dependency of a project and refuse one of an unknown kind. -/
def resolve (r : Registry) (project id : String) : Except BuildError Project :=
  match r.dependency project id with
  | .error e => .error e
  | .ok dep =>
    if dep.kind.isKnown then .ok dep
    else .error (.invalidProject id s!"unknown project type, required by '{project}'")

/-- A dependency is resolved exactly when it is registered with a known kind. -/
theorem resolve_eq_ok_iff {r : Registry} {project id : String} {dep : Project} :
    r.resolve project id = .ok dep ↔ r.get? id = some dep ∧ dep.kind.isKnown = true := by
  unfold resolve dependency
  cases r.get? id with
  | none => simp
  | some found =>
    by_cases h : found.kind.isKnown = true
    · simp only [h, if_true, Except.ok.injEq, Option.some.injEq]
      constructor
      · rintro rfl; exact ⟨rfl, h⟩
      · rintro ⟨rfl, -⟩; rfl
    · simp only [h, Option.some.injEq]
      constructor
      · intro e; cases e
      · rintro ⟨rfl, e⟩; exact absurd e h

/-- A resolved dependency is registered. -/
theorem mem_ids_of_resolve {r : Registry} {project id : String} {dep : Project}
    (h : r.resolve project id = .ok dep) : id ∈ r.ids :=
  mem_ids_iff.2 ⟨dep, (resolve_eq_ok_iff.1 h).1⟩

/-! ## The measure -/

/-- The number of registered ids that a list leaves out. -/
def missing (r : Registry) (seen : List String) : Nat :=
  (r.ids.filter fun id => !seen.contains id).length

/-- A list that takes in one more registered id leaves out fewer. -/
theorem missing_lt {r : Registry} {seen more : List String} {id : String}
    (hid : id ∈ r.ids) (hnew : id ∉ seen) (hmore : ∀ x ∈ seen, x ∈ more) (hin : id ∈ more) :
    r.missing more < r.missing seen := by
  unfold missing
  have key : ∀ ids : List String, id ∈ ids →
      (ids.filter fun x => !more.contains x).length
        < (ids.filter fun x => !seen.contains x).length := by
    intro ids hids
    have le : ∀ ids : List String,
        (ids.filter fun x => !more.contains x).length
          ≤ (ids.filter fun x => !seen.contains x).length := by
      intro ids
      induction ids with
      | nil => simp
      | cons x ids ih =>
        by_cases hs : x ∈ seen
        · have hm := hmore x hs
          simpa [hs, hm] using ih
        · by_cases hm : x ∈ more
          · simp only [List.filter_cons]
            simp [hs, hm]
            simp at ih
            omega
          · simpa [hs, hm] using ih
    induction ids with
    | nil => cases hids
    | cons x ids ih =>
      by_cases hx : x = id
      · subst hx
        have := le ids
        simp [hnew, hin] at this ⊢
        omega
      · have hids := (List.mem_cons.1 hids).resolve_left (Ne.symm hx)
        have lt := ih hids
        by_cases hs : x ∈ seen
        · have hm := hmore x hs
          simpa [hs, hm] using lt
        · by_cases hm : x ∈ more
          · simp [hs, hm] at lt ⊢
            omega
          · simpa [hs, hm] using lt
  exact key r.ids hid

/-! ## The link closure -/

/-- Visit the dependencies `deps` of a project, with the ids on the path to them, the
project last.  A dependency on the path closes a cycle. -/
def visitLinks (r : Registry) (project : String) (deps path : List String) :
    Extension Unit := fun found =>
  match deps with
  | [] => .ok () found
  | id :: rest =>
    if _hpath : id ∈ path then
      .error (.cyclicDependency (path.dropWhile (· != id) ++ [id])) found
    else if id ∈ found then r.visitLinks project rest path found
    else
      match _hdep : r.resolve project id with
      | .error e => .error e found
      | .ok dep =>
        match r.visitLinks dep.id dep.libs (path ++ [id]) found with
        | .error e found => .error e found
        | .ok () found => r.visitLinks project rest path (found ++ [id])
termination_by (r.missing path, deps.length)
decreasing_by
  · exact Prod.Lex.right _ (by simp)
  · exact Prod.Lex.left _ _ (missing_lt (mem_ids_of_resolve _hdep) _hpath
      (fun x hx => List.mem_append_left _ hx) (by simp))
  · exact Prod.Lex.right _ (by simp)

/-- Append the link closure of an id to a list, leaving out what it holds already. -/
def extendLink (r : Registry) (id : String) : Extension Unit := fun found =>
  match r.require id with
  | .error e => .error e found
  | .ok p => r.visitLinks p.id p.libs [p.id] found

/-- The link closure of an id. -/
def linkClosure (r : Registry) (id : String) : Except BuildError (List String) :=
  match r.extendLink id [] with
  | .ok () found => .ok found
  | .error e _ => .error e

/-! ## The header closure -/

/-- Visit pending dependencies, each with the project that has it, in order.  What a
dependency depends on comes directly after it. -/
def visitHeaders (r : Registry) (root : String) (pending : List (String × String)) :
    Extension Unit := fun found =>
  match pending with
  | [] => .ok () found
  | (project, id) :: rest =>
    if _hskip : id = root ∨ id ∈ found then r.visitHeaders root rest found
    else
      match _hdep : r.resolve project id with
      | .error e => .error e found
      | .ok dep =>
        r.visitHeaders root (dep.dependencies.map (fun next => (dep.id, next)) ++ rest)
          (found ++ [id])
termination_by found => (r.missing found, pending.length)
decreasing_by
  · exact Prod.Lex.right _ (by simp)
  · exact Prod.Lex.left _ _ (missing_lt (mem_ids_of_resolve _hdep) (fun h => _hskip (.inr h))
      (fun x hx => List.mem_append_left _ hx) (by simp))

/-- Append the header closure of an id to a list, leaving out what it holds already. -/
def extendHeaders (r : Registry) (id : String) : Extension Unit := fun found =>
  match r.require id with
  | .error e => .error e found
  | .ok p => r.visitHeaders p.id (p.dependencies.map fun next => (p.id, next)) found

/-- The header closure of an id. -/
def headerClosure (r : Registry) (id : String) : Except BuildError (List String) :=
  match r.extendHeaders id [] with
  | .ok () found => .ok found
  | .error e _ => .error e

end Registry

end NativeBuild
