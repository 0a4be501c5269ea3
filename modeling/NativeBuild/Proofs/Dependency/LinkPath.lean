import NativeBuild.Proofs.Dependency.LinkClosure
import NativeBuild.Proofs.Dependency.SearchCalls

/-!
# Paths of builds

The projects that a build is inside of, innermost first: each of them leads to what is
built next, and none of them lies on a cycle.  So what is built next is none of them, and
there are never more of them than projects.

Main definitions:

- `Registry.LeadsTo`: such a list of projects, with what is built next.

Main results:

- Theorem `LeadsTo.not_mem`: what is built next is not in the list.
- Theorem `LeadsTo.push`: a project with a link closure leads on to its libraries.
- Theorems `LeadsTo.length_le` and `LeadsTo.length_lt`: the list is no longer than the registry,
  and shorter when what is built next is registered.
-/

namespace NativeBuild

namespace Registry

variable {r : Registry}

/-- All projects of the list lead to an id, and none of them lies on a cycle. -/
structure LeadsTo (r : Registry) (stack : List String) (id : String) : Prop where
  registered : ∀ q ∈ stack, q ∈ r.ids
  nodup : stack.Nodup
  reaches : ∀ q ∈ stack, r.Reaches linkEdges q id
  acyclic : ∀ q ∈ stack, ¬ r.Reaches linkEdges q q

variable {stack : List String} {id : String}

/-- The projects of the empty list lead to any id. -/
theorem LeadsTo.nil (r : Registry) (id : String) : r.LeadsTo [] id :=
  ⟨by simp, List.nodup_nil, by simp, by simp⟩

/-- What is built next is not being built already. -/
theorem LeadsTo.not_mem (h : r.LeadsTo stack id) : id ∉ stack :=
  fun hmem => h.acyclic id hmem (h.reaches id hmem)

/-- A sound project leads on to its libraries. -/
theorem LeadsTo.push (h : r.LeadsTo stack id) (hid : id ∈ r.ids)
    (hsound : r.SoundAlong linkEdges id) {d : String} (hd : d ∈ r.edges linkEdges id) :
    r.LeadsTo (id :: stack) d where
  registered := by
    intro q hq
    rcases List.mem_cons.1 hq with rfl | hq
    · exact hid
    · exact h.registered q hq
  nodup := List.nodup_cons.2 ⟨h.not_mem, h.nodup⟩
  reaches := by
    intro q hq
    rcases List.mem_cons.1 hq with rfl | hq
    · exact .step hd
    · exact (h.reaches q hq).tail hd
  acyclic := by
    intro q hq
    rcases List.mem_cons.1 hq with rfl | hq
    · exact hsound.acyclic q (.inl rfl)
    · exact h.acyclic q hq

/-- The list is no longer than the registry. -/
theorem LeadsTo.length_le (h : r.LeadsTo stack id) : stack.length ≤ r.size :=
  Distinct.length_le ⟨h.nodup, h.registered⟩

/-- It is shorter when what is built next is registered. -/
theorem LeadsTo.length_lt (h : r.LeadsTo stack id) (hid : id ∈ r.ids) : stack.length < r.size :=
  (Distinct.cons ⟨h.nodup, h.registered⟩ hid h.not_mem).length_le

end Registry

end NativeBuild
