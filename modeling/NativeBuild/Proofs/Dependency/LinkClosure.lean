import NativeBuild.Proofs.Dependency.LinkExtension

/-!
# The link closure

The link closure of a project, said by reachability: when there is one, what it holds and
in which order.

Main results:

- Theorem `exists_linkClosure_iff`: there is a link closure exactly for registered ids
  below which all is sound.
- Theorem `mem_linkClosure_iff`: it holds exactly what is reached.
- Theorem `linkClosure_of_reaches`: whatever is reached has a link closure of its own,
  which is part of it.
- Theorem `linkClosure_exact`: all of this together, with the order.
-/

namespace NativeBuild

namespace Registry

variable {r : Registry} {id : String} {closure : List String}

/-! ## The closure as a visit -/

/-- A link closure is what an extension of the empty list leaves. -/
theorem linkClosure_eq_ok_iff_extendLink :
    r.linkClosure id = .ok closure ↔ r.extendLink id [] = .ok () closure := by
  unfold linkClosure
  cases r.extendLink id [] <;> simp

/-- There is none for the reason that the empty list cannot be extended. -/
theorem linkClosure_eq_error_iff {e : BuildError} :
    r.linkClosure id = .error e ↔ ∃ found, r.extendLink id [] = .error e found := by
  unfold linkClosure
  cases r.extendLink id [] <;> simp

/-- A link closure is what a visit of the id's own dependencies adds. -/
theorem linkClosure_eq_ok_iff :
    r.linkClosure id = .ok closure ↔
      id ∈ r.ids ∧ r.LinkVisit [id] [] (r.edges linkEdges id) closure := by
  rw [linkClosure_eq_ok_iff_extendLink, extendLink_eq_ok_iff]
  simp

/-- No id is listed twice. -/
theorem nodup_linkClosure (h : r.linkClosure id = .ok closure) : closure.Nodup :=
  (linkClosure_eq_ok_iff.1 h).2.nodup

/-- The project itself is not listed. -/
theorem not_mem_linkClosure (h : r.linkClosure id = .ok closure) : id ∉ closure := by
  intro hmem
  exact ((linkClosure_eq_ok_iff.1 h).2.fresh id hmem).1 List.mem_cons_self

/-- The closure lists dependencies before those that depend on them. -/
theorem dependenciesFirst_linkClosure (h : r.linkClosure id = .ok closure) :
    r.DependenciesFirst [] closure :=
  (linkClosure_eq_ok_iff.1 h).2.dependenciesFirst

/-- The closure lists exactly what the project reaches. -/
theorem mem_linkClosure_iff (h : r.linkClosure id = .ok closure) {q : String} :
    q ∈ closure ↔ r.Reaches linkEdges id q := by
  rw [(linkClosure_eq_ok_iff.1 h).2.mem_iff_outside, edgesOutside_nil]

/-! ## When there is a closure -/

/-- A project with a link closure is sound. -/
theorem soundAlong_of_linkClosure (h : r.linkClosure id = .ok closure) :
    r.SoundAlong linkEdges id :=
  edgesOutside_nil id ▸ (linkClosure_eq_ok_iff.1 h).2.soundOutside

/-- There is a link closure exactly for registered ids below which all is sound. -/
theorem exists_linkClosure_iff :
    (∃ closure, r.linkClosure id = .ok closure) ↔ id ∈ r.ids ∧ r.SoundAlong linkEdges id := by
  simp only [linkClosure_eq_ok_iff_extendLink]
  rw [exists_extendLink_iff, edgesOutside_nil]

/-- What a project with a link closure reaches has one too, and it is part of the
project's. -/
theorem linkClosure_of_reaches (h : r.linkClosure id = .ok closure) {q : String}
    (hq : r.Reaches linkEdges id q) :
    ∃ inner, r.linkClosure q = .ok inner ∧ ∀ a ∈ inner, a ∈ closure := by
  have hsound := soundAlong_of_linkClosure h
  obtain ⟨p, hp, -⟩ := hsound.usable q hq
  obtain ⟨inner, hinner⟩ :=
    exists_linkClosure_iff.2 ⟨mem_ids_iff.2 ⟨p, hp⟩, hsound.of_reaches hq⟩
  refine ⟨inner, hinner, fun a ha => ?_⟩
  exact (mem_linkClosure_iff h).2 (hq.trans ((mem_linkClosure_iff hinner).1 ha))

/-- The link closure is exact.  There is one if and only if the id is registered, all that
it reaches over libraries is registered with a known kind, and no cycle can be reached.
It then lists what is reached, each id once, without the project itself; before an id stand
its libraries and its whole link closure. -/
theorem linkClosure_exact (r : Registry) (id : String) :
    ((∃ closure, r.linkClosure id = .ok closure) ↔
      r.contains id = true ∧
      (∀ q, r.Reaches linkEdges id q → r.Usable q) ∧
      (∀ q, q = id ∨ r.Reaches linkEdges id q → ¬ r.Reaches linkEdges q q)) ∧
    ∀ closure, r.linkClosure id = .ok closure →
      closure.Nodup ∧
      id ∉ closure ∧
      (∀ q, q ∈ closure ↔ r.Reaches linkEdges id q) ∧
      ∀ before d after, closure = before ++ d :: after →
        (∀ q ∈ r.edges linkEdges d, q ∈ before) ∧
        ∃ inner, r.linkClosure d = .ok inner ∧ ∀ q ∈ inner, q ∈ before := by
  constructor
  · rw [exists_linkClosure_iff, contains, Option.isSome_iff_exists, ← mem_ids_iff]
    constructor
    · rintro ⟨hid, hsound⟩
      exact ⟨hid, hsound.usable, hsound.acyclic⟩
    · rintro ⟨hid, husable, hacyclic⟩
      exact ⟨hid, husable, hacyclic⟩
  · intro closure h
    refine ⟨nodup_linkClosure h, not_mem_linkClosure h, fun q => mem_linkClosure_iff h, ?_⟩
    rintro before d after rfl
    have hfirst := dependenciesFirst_linkClosure h
    have hd : r.Reaches linkEdges id d := (mem_linkClosure_iff h).1 (by simp)
    obtain ⟨inner, hinner, -⟩ := linkClosure_of_reaches h hd
    refine ⟨fun q hq => hfirst.mem_of_reaches (.step hq), inner, hinner, fun q hq => ?_⟩
    exact hfirst.mem_of_reaches ((mem_linkClosure_iff hinner).1 hq)

end Registry

end NativeBuild
