import Mathlib
import NativeBuild.Proofs.Dependency.HeaderClosure
import NativeBuild.Proofs.Dependency.LinkStop

/-!
# Errors of the dependency search

What a search complains of is so: a reported cycle is one, a missing dependency is declared and
not registered, and a project of an unknown kind is one that something reached depends on.  This
holds from every seed, which only hides what is below its ids.

Main definitions:

- `Registry.Cycle`: ids that depend on each other in a circle.
- `Registry.Dangling`: a dependency at or below an id that is not registered.
- `Registry.Refused`: a dependency at or below an id that has an unknown kind.
- `Registry.Explained`: what each error of a search says of the registry.

Main results:

- Theorem `resolve_eq_error`: why a dependency cannot be looked up.
- Theorems `explained_of_extendLink` and `explained_of_extendHeaders`: where extensions fail.
- Theorem `search_errors_hold`: what each error says.
-/

namespace NativeBuild

namespace Registry

variable {r : Registry} {follow : Project → List String}

/-! ## What errors say -/

/-- A cycle as it is reported: different ids, each of which depends on the next, and the first
of them once more at the end. -/
structure Cycle (r : Registry) (follow : Project → List String) (first : String)
    (cycle : List String) : Prop where
  closes : ∃ rest, cycle = first :: rest ++ [first] ∧ (first :: rest).Nodup
  chain : r.Chain follow cycle

/-- A project at or below the root depends on an id that is not registered. -/
structure Dangling (r : Registry) (follow : Project → List String)
    (root project dependency : String) : Prop where
  within : project = root ∨ r.Reaches follow root project
  declared : dependency ∈ r.edges follow project
  missing : r.contains dependency = false

/-- A project at or below the root depends on a registered one of an unknown kind. -/
structure Refused (r : Registry) (follow : Project → List String) (root project id : String) :
    Prop where
  within : project = root ∨ r.Reaches follow root project
  declared : id ∈ r.edges follow project
  unknown : ∃ p, r.get? id = some p ∧ p.kind = .unknown

/-- What an error of a search below a root says of the registry; a search has no others. -/
def Explained (r : Registry) (follow : Project → List String) (root : String) :
    BuildError → Prop
  | .projectNotFound id => id = root ∧ r.contains root = false
  | .cyclicDependency cycle =>
    ∃ first, r.Cycle follow first cycle ∧ (first = root ∨ r.Reaches follow root first)
  | .unresolvedDependency project dependency => r.Dangling follow root project dependency
  | .invalidProject id reason =>
    ∃ project, r.Refused follow root project id ∧
      reason = s!"unknown project type, required by '{project}'"
  | _ => False

/-! ## Where searches fail -/

/-- A dependency that cannot be looked up is not registered, or its kind is unknown. -/
theorem resolve_eq_error {project id : String} {e : BuildError}
    (h : r.resolve project id = .error e) :
    (r.contains id = false ∧ e = .unresolvedDependency project id) ∨
      ∃ p, r.get? id = some p ∧ p.kind = .unknown ∧
        e = .invalidProject id s!"unknown project type, required by '{project}'" := by
  unfold resolve dependency at h
  cases hp : r.get? id with
  | none =>
      simp only [hp] at h
      cases h
      exact .inl ⟨by simp [contains, hp], rfl⟩
  | some p =>
      simp only [hp] at h
      split at h
      · cases h
      · next hkind =>
          cases h
          refine .inr ⟨p, rfl, ?_, rfl⟩
          cases hunknown : p.kind <;> simp [hunknown, ProjectKind.isKnown] at hkind ⊢

/-- A dependency at or below the root that cannot be looked up is what its error says. -/
theorem explained_of_resolve {root project id : String} {e : BuildError}
    (hwithin : project = root ∨ r.Reaches follow root project)
    (hdeclared : id ∈ r.edges follow project) (h : r.resolve project id = .error e) :
    r.Explained follow root e := by
  rcases resolve_eq_error h with ⟨hmissing, rfl⟩ | ⟨p, hp, hunknown, rfl⟩
  · exact ⟨hwithin, hdeclared, hmissing⟩
  · exact ⟨project, ⟨hwithin, hdeclared, p, hp, hunknown⟩, rfl⟩

/-- An id that is not registered is one that is not found. -/
theorem explained_of_missing {id : String} (h : r.get? id = none) :
    r.Explained follow id (.projectNotFound id) :=
  ⟨rfl, by rw [contains, h, Option.isSome_none]⟩

/-- An extension of the link closure fails for an id that is not registered, at a cycle, or at a
dependency that cannot be looked up. -/
theorem explained_of_extendLink {id : String} {seed after : List String} {e : BuildError}
    (h : r.extendLink id seed = .error e after) : r.Explained linkEdges id e := by
  rcases extendLink_eq_error h with ⟨hmissing, rfl, -⟩ | ⟨new, hstop, -⟩
  · exact explained_of_missing hmissing
  · obtain ⟨last, trail, q, htrail, hedge, ⟨hpath, rfl⟩ | hresolve⟩ :=
      hstop.cause (.start r id) fun _ hd => hd
    · obtain ⟨rest, hcut, hnodup, hchain⟩ := htrail.cycle hedge hpath
      rw [hcut]
      exact ⟨q, ⟨⟨rest, rfl, hnodup⟩, hchain⟩, htrail.reaches hpath⟩
    · exact explained_of_resolve htrail.within hedge hresolve

/-- An extension of the header closure fails for an id that is not registered, or at a
dependency that cannot be looked up. -/
theorem explained_of_extendHeaders {id : String} {seed after : List String} {e : BuildError}
    (h : r.extendHeaders id seed = .error e after) : r.Explained headerEdges id e := by
  rcases extendHeaders_eq_error h with ⟨hmissing, rfl⟩ | ⟨project, q, hwithin, hedge, hresolve⟩
  · exact explained_of_missing hmissing
  · exact explained_of_resolve hwithin hedge hresolve

/-- Errors of the search are genuine, whatever the seed.  A reported cycle is a list of ids of
which each has the next among its libraries, without repeats but for the first, which ends it and
is the project or reached from it; the message is that list.  A dependency that is said to be
missing is declared, at or below the project, and is not registered; one that is said to be
invalid is declared there and registered with an unknown kind. -/
theorem search_errors_hold (r : Registry) (id : String) (seed : List String) :
    (∀ cycle after, r.extendLink id seed = .error (.cyclicDependency cycle) after →
      ∃ first, r.Cycle linkEdges first cycle ∧ (first = id ∨ r.Reaches linkEdges id first) ∧
        (BuildError.cyclicDependency cycle).message =
          "Circular dependency detected: " ++ " -> ".intercalate cycle) ∧
    (∀ project dependency after,
      (r.extendLink id seed = .error (.unresolvedDependency project dependency) after →
        r.Dangling linkEdges id project dependency) ∧
      (r.extendHeaders id seed = .error (.unresolvedDependency project dependency) after →
        r.Dangling headerEdges id project dependency)) ∧
    ∀ x reason after,
      (r.extendLink id seed = .error (.invalidProject x reason) after →
        ∃ project, r.Refused linkEdges id project x ∧
          reason = s!"unknown project type, required by '{project}'") ∧
      (r.extendHeaders id seed = .error (.invalidProject x reason) after →
        ∃ project, r.Refused headerEdges id project x ∧
          reason = s!"unknown project type, required by '{project}'") := by
  refine ⟨?_, fun project dependency after => ⟨?_, ?_⟩, fun x reason after => ⟨?_, ?_⟩⟩
  · intro cycle after h
    obtain ⟨first, hcycle, hwithin⟩ := explained_of_extendLink h
    exact ⟨first, hcycle, hwithin, rfl⟩
  · exact fun h => explained_of_extendLink h
  · exact fun h => explained_of_extendHeaders h
  · exact fun h => explained_of_extendLink h
  · exact fun h => explained_of_extendHeaders h

end Registry

/-! ## A sample -/

namespace Sample

/-- Two libraries that link each other, an application that links them and uses the headers of a
project that is nowhere, and a tool that links a project of an unknown kind. -/
def tangle : Registry where
  projects := [
    { id := "core", kind := .library, root := Path.ofString "core", libs := ["text"] },
    { id := "odd", kind := .unknown, root := Path.ofString "odd" },
    { id := "shell", kind := .application, root := Path.ofString "shell", libs := ["text"],
      includes := ["ghost"] },
    { id := "text", kind := .library, root := Path.ofString "text", libs := ["core"] },
    { id := "tool", kind := .application, root := Path.ofString "tool", libs := ["odd"] }]
  sorted := by decide

/-- The cycle is found below the application.  From a seed that hides it, the project that is
nowhere is found; and the tool cannot be linked. -/
theorem tangle_errors_hold :
    (tangle.extendLink "shell" [] = .error (.cyclicDependency ["text", "core", "text"]) [] ∧
      tangle.extendHeaders "shell" ["core"] =
        .error (.unresolvedDependency "shell" "ghost") ["core", "text"] ∧
      tangle.extendLink "tool" [] =
        .error (.invalidProject "odd" "unknown project type, required by 'tool'") []) ∧
    (∃ first, tangle.Cycle linkEdges first ["text", "core", "text"]) ∧
    tangle.Dangling headerEdges "shell" "shell" "ghost" ∧
    ∃ project, tangle.Refused linkEdges "tool" project "odd" := by
  have hcycle : tangle.extendLink "shell" [] =
      .error (.cyclicDependency ["text", "core", "text"]) [] := by cbv
  have hghost : tangle.extendHeaders "shell" ["core"] =
      .error (.unresolvedDependency "shell" "ghost") ["core", "text"] := by cbv
  have hodd : tangle.extendLink "tool" [] =
      .error (.invalidProject "odd" "unknown project type, required by 'tool'") [] := by cbv
  obtain ⟨hcycles, -, -⟩ := Registry.search_errors_hold tangle "shell" []
  obtain ⟨-, hdangling, -⟩ := Registry.search_errors_hold tangle "shell" ["core"]
  obtain ⟨-, -, hrefused⟩ := Registry.search_errors_hold tangle "tool" []
  obtain ⟨first, htangle, -⟩ := hcycles _ _ hcycle
  obtain ⟨project, hproject, -⟩ := (hrefused _ _ _).1 hodd
  exact ⟨⟨hcycle, hghost, hodd⟩, ⟨first, htangle⟩, (hdangling _ _ _).2 hghost, project, hproject⟩

end Sample

end NativeBuild
