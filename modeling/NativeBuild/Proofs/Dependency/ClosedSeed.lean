import Mathlib
import NativeBuild.Proofs.Dependency.HeaderClosure
import NativeBuild.Proofs.Dependency.LinkClosure

/-!
# Extensions of closed lists

A seed that holds all dependencies of its ids only filters: the extension appends what the
closure lists outside the seed, in the order of the closure.  The search from nothing enters ids of
the seed as well; but all that it adds below them is in the seed, so that both searches find the
same ids outside of it at every moment.

Main definitions:

- `Registry.ClosedUnder`: a list that holds the dependencies of its ids.

Main results:

- Theorems `LinkVisit.seeded` and `HeaderVisit.seeded`: a visit from nothing is one from a closed
  seed, of the same dependencies.
- Theorem `extensions_of_closed`: the extensions of closed lists.
-/

namespace NativeBuild

namespace Registry

variable {r : Registry} {follow : Project → List String} {seed : List String}

/-- A list of ids is closed when it holds all that its ids depend on. -/
def ClosedUnder (r : Registry) (follow : Project → List String) (ids : List String) : Prop :=
  ∀ a ∈ ids, ∀ b ∈ r.edges follow a, b ∈ ids

instance (ids : List String) : Decidable (r.ClosedUnder follow ids) :=
  inferInstanceAs (Decidable (∀ a ∈ ids, ∀ b ∈ r.edges follow a, b ∈ ids))

/-- A closed list holds all that its ids reach. -/
theorem ClosedUnder.mem_of_reaches {a q : String} (h : r.ClosedUnder follow seed) (ha : a ∈ seed)
    (hreach : r.Reaches follow a q) : q ∈ seed := by
  induction hreach with
  | step hb => exact h a ha _ hb
  | tail _ hc ih => exact h _ ih _ hc

/-! ## Libraries -/

/-- A visit that enters ids of a closed seed adds the same outside the seed as one that skips
them. -/
theorem LinkVisit.seeded {path found deps new : List String}
    (h : r.LinkVisit path found deps new) (hclosed : r.ClosedUnder linkEdges seed) :
    r.LinkVisit path (seed ++ found.filter (· ∉ seed)) deps (new.filter (· ∉ seed)) := by
  induction h with
  | done => exact .done
  | @skip path found rest new id hpath hfound _ ih =>
      refine .skip hpath ?_ ih
      by_cases hid : id ∈ seed <;> simp [hid, hfound]
  | @enter path found rest inner new id hpath hfound husable hinner _ ihinner ihrest =>
      by_cases hid : id ∈ seed
      · -- The seeded visit skips the id; all that is added below it is in the seed.
        have hbelow : inner.filter (· ∉ seed) = [] := List.filter_eq_nil_iff.2 fun q hq => by
          simpa using hclosed.mem_of_reaches hid (hinner.reaches q hq)
        simp only [List.filter_append, List.filter_cons, hbelow, hid, not_true, decide_false,
          Bool.false_eq_true, if_false, List.filter_nil, List.append_nil, List.nil_append]
          at ihrest ⊢
        exact .skip hpath (List.mem_append_left _ hid) ihrest
      · simp only [List.filter_append, List.filter_cons, hid, not_false_iff, decide_true, if_true,
          List.filter_nil] at ihrest ⊢
        refine .enter hpath (by simp [hid, hfound]) husable ihinner ?_
        simpa using ihrest

/-! ## Headers -/

variable {root : String}

/-- Pending dependencies that are found already do not matter. -/
theorem HeaderVisit.of_found {skipped rest : List (String × String)} {found new : List String}
    (h : r.HeaderVisit root found (skipped ++ rest) new)
    (hfound : ∀ d ∈ skipped.map Prod.snd, d ∈ found) : r.HeaderVisit root found rest new := by
  induction skipped with
  | nil => exact h
  | cons entry skipped ih =>
      obtain ⟨hfirst, hskipped⟩ := List.forall_mem_cons.1 hfound
      cases h with
      | skip _ hrest => exact ih hrest hskipped
      | enter hnew => exact absurd (.inr hfirst) hnew

/-- A visit that enters ids of a closed seed adds the same outside the seed as one that skips
them. -/
theorem HeaderVisit.seeded {found new : List String} {pending : List (String × String)}
    (h : r.HeaderVisit root found pending new) (hclosed : r.ClosedUnder headerEdges seed) :
    r.HeaderVisit root (seed ++ found.filter (· ∉ seed)) pending (new.filter (· ∉ seed)) := by
  induction h with
  | done => exact .done
  | @skip found new project id rest hskip _ ih =>
      refine .skip (hskip.imp_right fun hfound => ?_) ih
      by_cases hid : id ∈ seed <;> simp [hid, hfound]
  | @enter found new project id rest hnew husable _ ih =>
      by_cases hid : id ∈ seed
      · -- The seeded visit skips the id, and its dependencies, which are in the seed.
        simp only [List.filter_append, List.filter_cons, hid, not_true, decide_false,
          Bool.false_eq_true, if_false, List.filter_nil, List.append_nil] at ih ⊢
        refine .skip (.inr (List.mem_append_left _ hid)) (ih.of_found fun d hd => ?_)
        rw [map_snd_pending] at hd
        exact List.mem_append_left _ (hclosed id hid d hd)
      · simp only [List.filter_append, List.filter_cons, hid, not_false_iff, decide_true, if_true,
          List.filter_nil] at ih ⊢
        obtain ⟨hroot, hfound⟩ := not_or.1 hnew
        refine .enter (by simp [hroot, hid, hfound]) husable ?_
        simpa using ih

/-! ## Extensions -/

/-- Extending a closed list only filters.  Where a project has a link closure, extending a list
that holds the libraries of its ids succeeds, and appends what the closure lists outside of it, in
the order of the closure; likewise for the header closure and a list that holds the libraries and
the includes of its ids. -/
theorem extensions_of_closed (r : Registry) (id : String) (seed : List String) :
    (∀ closure, r.ClosedUnder linkEdges seed → r.linkClosure id = .ok closure →
      r.extendLink id seed = .ok () (seed ++ closure.filter (· ∉ seed))) ∧
    ∀ closure, r.ClosedUnder headerEdges seed → r.headerClosure id = .ok closure →
      r.extendHeaders id seed = .ok () (seed ++ closure.filter (· ∉ seed)) := by
  constructor
  · intro closure hclosed h
    obtain ⟨hid, hvisit⟩ := linkClosure_eq_ok_iff.1 h
    have hseeded := hvisit.seeded hclosed
    rw [List.filter_nil, List.append_nil] at hseeded
    exact extendLink_eq_ok_iff.2 ⟨hid, _, hseeded, rfl⟩
  · intro closure hclosed h
    obtain ⟨hid, hvisit⟩ := headerClosure_eq_ok_iff.1 h
    have hseeded := hvisit.seeded hclosed
    rw [List.filter_nil, List.append_nil] at hseeded
    exact extendHeaders_eq_ok_iff.2 ⟨hid, _, hseeded, rfl⟩

end Registry

/-! ## A sample -/

namespace Sample

/-- An editor over two libraries of which one uses the other's headers; both link the same
library, and that one and the headers of a font are all that the first needs. -/
def editorRegistry : Registry where
  projects := [
    { id := "base", kind := .library, root := Path.ofString "base" },
    { id := "editor", kind := .application, root := Path.ofString "editor",
      libs := ["paint", "lines"] },
    { id := "font", kind := .library, root := Path.ofString "font" },
    { id := "lines", kind := .library, root := Path.ofString "lines", libs := ["base"],
      includes := ["paint"] },
    { id := "paint", kind := .library, root := Path.ofString "paint", libs := ["base"],
      includes := ["font"] }]
  sorted := by decide

/-- The closures of the editor, and what is left of them after those of one of its libraries. -/
theorem editor_extensions :
    (editorRegistry.linkClosure "editor" = .ok ["base", "paint", "lines"] ∧
      editorRegistry.extendLink "editor" ["paint", "base"] =
        .ok () ["paint", "base", "lines"]) ∧
    editorRegistry.headerClosure "editor" = .ok ["paint", "base", "font", "lines"] ∧
      editorRegistry.extendHeaders "editor" ["font", "paint", "base"] =
        .ok () ["font", "paint", "base", "lines"] := by
  have hlinks : editorRegistry.linkClosure "editor" = .ok ["base", "paint", "lines"] := by cbv
  have hheaders :
      editorRegistry.headerClosure "editor" = .ok ["paint", "base", "font", "lines"] := by cbv
  have hclosed : editorRegistry.ClosedUnder linkEdges ["paint", "base"] := by decide
  have hknown : editorRegistry.ClosedUnder headerEdges ["font", "paint", "base"] := by decide
  have hlink := (Registry.extensions_of_closed editorRegistry "editor" _).1 _ hclosed hlinks
  have hheader := (Registry.extensions_of_closed editorRegistry "editor" _).2 _ hknown hheaders
  exact ⟨⟨hlinks, by simpa using hlink⟩, hheaders, by simpa using hheader⟩

end Sample

end NativeBuild
