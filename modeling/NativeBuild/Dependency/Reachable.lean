import NativeBuild.Project.Registry

/-!
# Reachability in the dependency graph

The two relations between projects, said without any traversal: `P` links `D` when it
lists `D` among its libraries, and `P` uses the headers of `D` when it lists `D`
anywhere.

Main definitions:

- `Registry.edges`: the ids that a registered id depends on, by a choice of lists.
- `Registry.Reaches`: dependency over one or more steps.
- `Registry.Chain`: a list of ids, each of which depends on the next.
-/

namespace NativeBuild

/-- The dependencies that linking follows. -/
def linkEdges (p : Project) : List String := p.libs

/-- The dependencies that header search follows. -/
def headerEdges (p : Project) : List String := p.dependencies

namespace Registry

/-- The ids that an id depends on; an id that is not registered depends on none. -/
def edges (r : Registry) (follow : Project → List String) (id : String) : List String :=
  match r.get? id with
  | some p => follow p
  | none => []

/-- The id `b` is reached from `a` over one or more dependencies. -/
inductive Reaches (r : Registry) (follow : Project → List String) : String → String → Prop
  | step {a b : String} : b ∈ r.edges follow a → Reaches r follow a b
  | tail {a b c : String} : Reaches r follow a b → c ∈ r.edges follow b → Reaches r follow a c

/-- Each id of the list depends on the next. -/
def Chain (r : Registry) (follow : Project → List String) : List String → Prop
  | [] => True
  | [_] => True
  | a :: b :: rest => b ∈ r.edges follow a ∧ r.Chain follow (b :: rest)

/-- An id is usable when it is registered with a known kind. -/
def Usable (r : Registry) (id : String) : Prop :=
  ∃ p, r.get? id = some p ∧ p.kind.isKnown = true

variable {r : Registry} {follow : Project → List String}

/-- Reachability composes. -/
theorem Reaches.trans {a b c : String} (hab : r.Reaches follow a b)
    (hbc : r.Reaches follow b c) : r.Reaches follow a c := by
  induction hbc with
  | step h => exact hab.tail h
  | tail _ h ih => exact ih.tail h

/-- A reached id is reached from a first dependency or is one. -/
theorem Reaches.cases_head {a c : String} (h : r.Reaches follow a c) :
    ∃ b ∈ r.edges follow a, b = c ∨ r.Reaches follow b c := by
  induction h with
  | step h => exact ⟨_, h, .inl rfl⟩
  | tail _ hc ih =>
    obtain ⟨b, hb, rfl | hbc⟩ := ih
    · exact ⟨b, hb, .inr (.step hc)⟩
    · exact ⟨b, hb, .inr (hbc.tail hc)⟩

end Registry

end NativeBuild
