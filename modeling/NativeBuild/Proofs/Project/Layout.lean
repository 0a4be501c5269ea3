import NativeBuild.Project.Registry
import NativeBuild.Proofs.Path.Join

/-!
# The directories of projects

Where the directories of projects lie, by components, and when those of two projects may be the
same.

Main definitions:

- `Registry.Apart`: no project lies at, above or below another.

Main results:

- Theorems `components_objDir`, `components_binDir` and `components_includeDir`: all lie directly
  below the root.
- Theorem `Registry.Apart.id_eq_of_same_binDir`: projects that lie apart have different
  directories for their outputs.
-/

namespace NativeBuild

namespace Project

/-- The directory of objects lies directly below the root. -/
theorem components_objDir (p : Project) :
    p.objDir.components = p.root.components ++ [.name (Text.utf8 "obj")] :=
  p.root.components_child (by decide) (by decide) (by decide)

/-- The directory of the output lies directly below the root. -/
theorem components_binDir (p : Project) :
    p.binDir.components = p.root.components ++ [.name (Text.utf8 "bin")] :=
  p.root.components_child (by decide) (by decide) (by decide)

/-- The directory of the headers lies directly below the root. -/
theorem components_includeDir (p : Project) :
    p.includeDir.components = p.root.components ++ [.name (Text.utf8 "includes")] :=
  p.root.components_child (by decide) (by decide) (by decide)

/-- Directories of headers are the same when the roots are. -/
theorem includeDir_same_iff {p q : Project} :
    p.includeDir.same q.includeDir = true ↔ p.root.same q.root = true := by
  rw [Path.same_iff, Path.same_iff, components_includeDir, components_includeDir,
    List.append_left_inj]

/-- A directory of objects is never one of headers. -/
theorem objDir_same_includeDir (p q : Project) : p.objDir.same q.includeDir = false := by
  rw [Bool.eq_false_iff, ne_eq, Path.same_iff, components_objDir, components_includeDir]
  intro h
  have hlast := (List.append_inj' h rfl).2
  exact absurd hlast (by decide)

/-- A directory of headers is never one of objects. -/
theorem includeDir_same_objDir (p q : Project) : p.includeDir.same q.objDir = false := by
  have h := q.objDir_same_includeDir p
  rw [Bool.eq_false_iff, ne_eq, Path.same_iff] at h ⊢
  exact Ne.symm h

/-- A directory of objects is never one of outputs. -/
theorem objDir_same_binDir (p q : Project) : p.objDir.same q.binDir = false := by
  rw [Bool.eq_false_iff, ne_eq, Path.same_iff, components_objDir, components_binDir]
  intro h
  have hlast := (List.append_inj' h rfl).2
  exact absurd hlast (by decide)

end Project

namespace Registry

/-- No project lies at, above or below another. -/
def Apart (r : Registry) : Prop :=
  ∀ p ∈ r.projects, ∀ q ∈ r.projects, p.id ≠ q.id → ¬ p.root.components <+: q.root.components

/-- Projects that lie apart have different directories for their outputs. -/
theorem Apart.id_eq_of_same_binDir {r : Registry} (h : r.Apart) {p q : Project}
    (hp : p ∈ r.projects) (hq : q ∈ r.projects) (hsame : p.binDir.same q.binDir = true) :
    p.id = q.id := by
  rw [Path.same_iff, Project.components_binDir, Project.components_binDir] at hsame
  have hroot : p.root.components = q.root.components := (List.append_inj' hsame rfl).1
  by_cases heq : p.id = q.id
  · exact heq
  · exact absurd (hroot ▸ List.prefix_rfl) (h p hp q hq heq)

end Registry

end NativeBuild
