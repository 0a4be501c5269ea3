import NativeBuild.Proofs.Dependency.LinkStop

/-!
# Extensions of the link closure

A search that starts from a seed does not enter the ids of the seed.  It sees the dependency
graph without them, but for the project that it starts at: meeting that one again closes a cycle,
whether it is in the seed or not.

Main definitions:

- `edgesOutside`: the dependencies that the search has not found before it starts.
- `Registry.SoundAlong`: an id below which all is usable and without cycles.

Main results:

- Theorem `LinkVisit.mem_iff_outside`: a visit adds what is reached outside the seed.
- Theorem `exists_extendLink_iff`: when the extension succeeds.
- Theorem `extendLink_exact`: what is added, on success and on failure.
-/

namespace NativeBuild

/-- The dependencies that a search from a root has not found before it starts: those that are not
in the seed, and the root. -/
def edgesOutside (seed : List String) (root : String) (p : Project) : List String :=
  p.libs.filter fun id => id == root || !seed.contains id

/-- Without a seed, the search sees all dependencies. -/
theorem edgesOutside_nil (root : String) : edgesOutside [] root = linkEdges := by
  funext p
  simp [edgesOutside, linkEdges]

namespace Registry

variable {r : Registry} {seed : List String} {root : String}

/-- The dependencies outside a seed are those that are the root or not in the seed. -/
theorem mem_edges_edgesOutside {a q : String} :
    q ∈ r.edges (edgesOutside seed root) a ↔
      q ∈ r.edges linkEdges a ∧ (q = root ∨ q ∉ seed) := by
  cases hp : r.get? a with
  | none => simp [edges, hp]
  | some p => simp [edges, hp, edgesOutside, linkEdges]

/-! ## Sound ids -/

/-- All that an id reaches is usable, and no cycle can be reached from it. -/
structure SoundAlong (r : Registry) (follow : Project → List String) (id : String) : Prop where
  usable : ∀ q, r.Reaches follow id q → r.Usable q
  acyclic : ∀ q, q = id ∨ r.Reaches follow id q → ¬ r.Reaches follow q q

/-- What is reached from a sound id is sound. -/
theorem SoundAlong.of_reaches {follow : Project → List String} {a b : String}
    (h : r.SoundAlong follow a) (hab : r.Reaches follow a b) : r.SoundAlong follow b where
  usable q hq := h.usable q (hab.trans hq)
  acyclic := by
    rintro q (rfl | hq)
    · exact h.acyclic q (.inr hab)
    · exact h.acyclic q (.inr (hab.trans hq))

/-! ## When there is a visit -/

/-- The path of a search outside a seed: it leads to the project that the search is in, and
apart from the root it keeps off the seed. -/
structure LeadsOutside (r : Registry) (seed : List String) (root project : String)
    (path : List String) : Prop where
  leads : ∀ q ∈ path, q = project ∨ r.Reaches (edgesOutside seed root) q project
  off : ∀ q ∈ path, q = root ∨ q ∉ seed

/-- The path of a search goes on to a dependency outside the seed. -/
theorem LeadsOutside.push {project id : String} {path : List String}
    (h : r.LeadsOutside seed root project path)
    (hid : id ∈ r.edges (edgesOutside seed root) project) :
    r.LeadsOutside seed root id (path ++ [id]) where
  leads := by
    intro q hq
    rcases List.mem_append.1 hq with hq | hq
    · rcases h.leads q hq with rfl | hreach
      · exact .inr (.step hid)
      · exact .inr (hreach.tail hid)
    · exact .inl (List.mem_singleton.1 hq)
  off := by
    intro q hq
    rcases List.mem_append.1 hq with hq | hq
    · exact h.off q hq
    · rw [List.mem_singleton.1 hq]
      exact (mem_edges_edgesOutside.1 hid).2

/-- A visit exists when the project is sound outside the seed: all ids of the path lead to the
project, so that meeting one of them again would close a cycle. -/
theorem SoundAlong.exists_linkVisit {project : String} {deps path found : List String}
    (hsound : r.SoundAlong (edgesOutside seed root) project)
    (hdeps : ∀ d ∈ deps, d ∈ r.edges linkEdges project)
    (hpath : r.LeadsOutside seed root project path) (hseed : ∀ q ∈ seed, q ∈ found) :
    ∃ new, r.LinkVisit path found deps new := by
  induction project, deps, path, found using visitLinks.induct r with
  | case1 => exact ⟨[], .done⟩
  | case2 project path found id rest hmem =>
      have hid : r.Reaches (edgesOutside seed root) project id :=
        .step (mem_edges_edgesOutside.2 ⟨hdeps id List.mem_cons_self, hpath.off id hmem⟩)
      have hcycle : r.Reaches (edgesOutside seed root) project project := by
        rcases hpath.leads id hmem with rfl | hback
        · exact hid
        · exact hid.trans hback
      exact absurd hcycle (hsound.acyclic project (.inl rfl))
  | case3 project path found id rest hmem hfound ih =>
      obtain ⟨new, hnew⟩ :=
        ih hsound (fun d hd => hdeps d (List.mem_cons_of_mem _ hd)) hpath hseed
      exact ⟨new, .skip hmem hfound hnew⟩
  | case4 project path found id rest hmem hfound e hdep =>
      have hid : id ∈ r.edges (edgesOutside seed root) project := mem_edges_edgesOutside.2
        ⟨hdeps id List.mem_cons_self, .inr fun hin => hfound (hseed id hin)⟩
      obtain ⟨dep, hok⟩ := (exists_resolve_eq_ok_iff project).2 (hsound.usable id (.step hid))
      rw [hdep] at hok
      cases hok
  | case5 project path found id rest hmem hfound dep hdep e stopped hstopped ih =>
      have hreg : r.get? id = some dep := (resolve_eq_ok_iff.1 hdep).1
      obtain rfl := id_of_get? hreg
      have hid : dep.id ∈ r.edges (edgesOutside seed root) project := mem_edges_edgesOutside.2
        ⟨hdeps dep.id List.mem_cons_self, .inr fun hin => hfound (hseed dep.id hin)⟩
      obtain ⟨inner, hinner⟩ := ih (hsound.of_reaches (.step hid))
        (by simp [edges_linkEdges hreg]) (hpath.push hid) hseed
      rw [hinner.visitLinks] at hstopped
      cases hstopped
  | case6 project path found id rest hmem hfound dep hdep after hafter ih ihrest =>
      have hreg : r.get? id = some dep := (resolve_eq_ok_iff.1 hdep).1
      obtain rfl := id_of_get? hreg
      have hid : dep.id ∈ r.edges (edgesOutside seed root) project := mem_edges_edgesOutside.2
        ⟨hdeps dep.id List.mem_cons_self, .inr fun hin => hfound (hseed dep.id hin)⟩
      obtain ⟨inner, hinner⟩ := ih (hsound.of_reaches (.step hid))
        (by simp [edges_linkEdges hreg]) (hpath.push hid) hseed
      rw [hinner.visitLinks] at hafter
      cases hafter
      obtain ⟨new, hnew⟩ := ihrest hsound (fun d hd => hdeps d (List.mem_cons_of_mem _ hd)) hpath
        (fun q hq => by simp [hseed q hq])
      rw [← edges_linkEdges hreg] at hinner
      exact ⟨inner ++ dep.id :: new,
        .enter hmem hfound ((exists_resolve_eq_ok_iff project).1 ⟨dep, hdep⟩) hinner hnew⟩

/-! ## What a visit adds -/

section Added

variable {path found deps new : List String}

/-- A visit succeeds only when none of its dependencies is on the path. -/
theorem LinkVisit.off_path (h : r.LinkVisit path found deps new) : ∀ d ∈ deps, d ∉ path := by
  induction h with
  | done => simp
  | skip hpath _ _ ih => exact List.forall_mem_cons.2 ⟨hpath, ih⟩
  | enter hpath _ _ _ _ _ ihrest => exact List.forall_mem_cons.2 ⟨hpath, ihrest⟩

/-- Nor is any dependency of what it adds. -/
theorem LinkVisit.edges_off_path (h : r.LinkVisit path found deps new) :
    ∀ q ∈ new, ∀ d ∈ r.edges linkEdges q, d ∉ path := by
  induction h with
  | done => simp
  | skip _ _ _ ih => exact ih
  | enter _ _ _ hinner _ ihinner ihrest =>
      intro q hq d hd hmem
      rcases List.mem_append.1 hq with hq | hq
      · exact ihinner q hq d hd (List.mem_append_left _ hmem)
      · rcases List.mem_cons.1 hq with rfl | hq
        · exact hinner.off_path d hd (List.mem_append_left _ hmem)
        · exact ihrest q hq d hd hmem

/-- All that a visit adds is one of the dependencies that were not found, or reached from one
outside the seed. -/
theorem LinkVisit.reached_outside (h : r.LinkVisit path found deps new) (root : String)
    (hseed : ∀ q ∈ seed, q ∈ found) :
    ∀ q ∈ new, ∃ d ∈ deps, d ∉ found ∧ (q = d ∨ r.Reaches (edgesOutside seed root) d q) := by
  induction h with
  | done => simp
  | skip _ _ _ ih =>
      intro q hq
      obtain ⟨d, hd, hreach⟩ := ih hseed q hq
      exact ⟨d, List.mem_cons_of_mem _ hd, hreach⟩
  | @enter path found rest inner new id _ hfound _ _ _ ihinner ihrest =>
      intro q hq
      rcases List.mem_append.1 hq with hq | hq
      · obtain ⟨d, hd, hnew, hreach⟩ := ihinner hseed q hq
        have hedge : d ∈ r.edges (edgesOutside seed root) id :=
          mem_edges_edgesOutside.2 ⟨hd, .inr fun hin => hnew (hseed d hin)⟩
        refine ⟨id, List.mem_cons_self, hfound, .inr ?_⟩
        rcases hreach with rfl | hreach
        · exact .step hedge
        · exact .head hedge hreach
      · rcases List.mem_cons.1 hq with rfl | hq
        · exact ⟨q, List.mem_cons_self, hfound, .inl rfl⟩
        · obtain ⟨d, hd, hnew, hreach⟩ := ihrest (fun q hq => by simp [hseed q hq]) q hq
          exact ⟨d, List.mem_cons_of_mem _ hd, fun hin => hnew (by simp [hin]), hreach⟩

/-- A visit of all that a project links only adds what the project reaches. -/
theorem LinkVisit.reaches {id : String}
    (h : r.LinkVisit path found (r.edges linkEdges id) new) :
    ∀ q ∈ new, r.Reaches linkEdges id q := by
  intro q hq
  obtain ⟨d, hd, -, hreach⟩ := h.reached_outside id (List.forall_mem_nil _) q hq
  rw [edgesOutside_nil] at hreach
  rcases hreach with rfl | hreach
  · exact .step hd
  · exact .head hd hreach

end Added

/-! ## Visits from a seed -/

section Seeded

variable {id : String} {new : List String} (h : r.LinkVisit [id] seed (r.edges linkEdges id) new)

include h

/-- A visit from a seed adds exactly what is reached outside of it. -/
theorem LinkVisit.mem_iff_outside {q : String} :
    q ∈ new ↔ r.Reaches (edgesOutside seed id) id q := by
  constructor
  · intro hq
    obtain ⟨d, hd, hnew, hreach⟩ := h.reached_outside id (fun _ hq => hq) q hq
    have hedge : d ∈ r.edges (edgesOutside seed id) id :=
      mem_edges_edgesOutside.2 ⟨hd, .inr hnew⟩
    rcases hreach with rfl | hreach
    · exact .step hedge
    · exact .head hedge hreach
  · intro hreach
    induction hreach with
    | step hb =>
        obtain ⟨hedge, hout⟩ := mem_edges_edgesOutside.1 hb
        have hne := h.off_path _ hedge
        rw [List.mem_singleton] at hne
        exact (List.mem_append.1 (h.covers _ hedge)).resolve_left (hout.resolve_left hne)
    | tail _ hc ih =>
        obtain ⟨hedge, hout⟩ := mem_edges_edgesOutside.1 hc
        have hne := h.edges_off_path _ ih _ hedge
        rw [List.mem_singleton] at hne
        obtain ⟨before, after, rfl⟩ := List.append_of_mem ih
        have hbefore := h.dependenciesFirst.edges_before hedge
        exact List.mem_append_left _
          ((List.mem_append.1 hbefore).resolve_left (hout.resolve_left hne))

/-- Where there is a visit from a seed, all is sound outside of it: whatever is reached stands in
the list once, after all that it reaches in turn. -/
theorem LinkVisit.soundOutside : r.SoundAlong (edgesOutside seed id) id where
  usable q hq := h.usable q (h.mem_iff_outside.2 hq)
  acyclic := by
    rintro q (rfl | hq) hcycle
    · exact (h.fresh q (h.mem_iff_outside.2 hcycle)).1 List.mem_cons_self
    · obtain ⟨before, after, rfl⟩ := List.append_of_mem (h.mem_iff_outside.2 hq)
      have hbefore : q ∈ before := by
        refine h.dependenciesFirst.mem_of_reaches_along
          (fun _ _ hd => (mem_edges_edgesOutside.1 hd).1) (fun d hd => ?_) hcycle
        exact (h.fresh d (h.mem_iff_outside.2 (hq.trans hd))).2
      exact (List.nodup_append.1 h.nodup).2.2 q hbefore q List.mem_cons_self rfl

end Seeded

/-! ## Extensions -/

section Extensions

variable {id : String} {after : List String}

/-- An extension that succeeds appends what a visit of the id's own dependencies adds. -/
theorem extendLink_eq_ok_iff :
    r.extendLink id seed = .ok () after ↔
      id ∈ r.ids ∧
        ∃ new, r.LinkVisit [id] seed (r.edges linkEdges id) new ∧ after = seed ++ new := by
  rw [mem_ids_iff]
  cases hp : r.get? id with
  | none => simp [extendLink, require, hp]
  | some p =>
      obtain rfl := id_of_get? hp
      simp only [extendLink, require, hp, edges_linkEdges hp]
      constructor
      · exact fun h => ⟨⟨p, rfl⟩, linkVisit_of_visitLinks h⟩
      · rintro ⟨-, new, h, rfl⟩
        exact h.visitLinks p.id

/-- An extension succeeds exactly for registered ids that are sound outside the seed. -/
theorem exists_extendLink_iff :
    (∃ after, r.extendLink id seed = .ok () after) ↔
      id ∈ r.ids ∧ r.SoundAlong (edgesOutside seed id) id := by
  constructor
  · rintro ⟨after, h⟩
    obtain ⟨hid, new, hvisit, -⟩ := extendLink_eq_ok_iff.1 h
    exact ⟨hid, hvisit.soundOutside⟩
  · rintro ⟨hid, hsound⟩
    have hstart : r.LeadsOutside seed id id [id] := ⟨by simp, by simp⟩
    obtain ⟨new, hvisit⟩ : ∃ new, r.LinkVisit [id] seed (r.edges linkEdges id) new :=
      hsound.exists_linkVisit (fun _ hd => hd) hstart fun _ hq => hq
    exact ⟨seed ++ new, extendLink_eq_ok_iff.2 ⟨hid, new, hvisit, rfl⟩⟩

/-- Whether it succeeds or fails, an extension appends what some visit below the id adds. -/
theorem exists_linkVisit_of_extendLink (r : Registry) (id : String) (seed : List String) :
    ∃ deps new, r.LinkVisit [id] seed deps new ∧
      (r.extendLink id seed = .ok () (seed ++ new) ∨
        ∃ e, r.extendLink id seed = .error e (seed ++ new)) := by
  cases hextend : r.extendLink id seed with
  | ok _ after =>
      obtain ⟨-, new, hvisit, rfl⟩ := extendLink_eq_ok_iff.1 hextend
      exact ⟨_, new, hvisit, .inl rfl⟩
  | error e after =>
      rcases extendLink_eq_error hextend with ⟨-, -, rfl⟩ | ⟨new, hstop, rfl⟩
      · exact ⟨[], [], .done, .inr ⟨e, by simp⟩⟩
      · obtain ⟨left, hvisit⟩ := hstop.exists_linkVisit
        exact ⟨left, new, hvisit, .inr ⟨e, rfl⟩⟩

/-- The extension of the link closure is exact, on success and on failure.  Whatever happens, the
seed is kept and followed by usable ids, each once, none of them in the seed and none of them the
project, and each after all its libraries that are not in the seed.  It succeeds if and only if
the id is registered and, in the graph without the ids of the seed other than the project, all
that the project reaches is usable and no cycle can be reached; and then exactly that is added. -/
theorem extendLink_exact (r : Registry) (id : String) (seed : List String) :
    ∃ new,
      (r.extendLink id seed = .ok () (seed ++ new) ∨
        ∃ e, r.extendLink id seed = .error e (seed ++ new)) ∧
      new.Nodup ∧
      (∀ q ∈ new, q ∉ seed) ∧
      id ∉ new ∧
      (∀ q ∈ new, r.Usable q) ∧
      (∀ before q rest, new = before ++ q :: rest →
        ∀ d ∈ r.edges linkEdges q, d ∈ seed ∨ d ∈ before) ∧
      ((∃ after, r.extendLink id seed = .ok () after) ↔
        r.contains id = true ∧
        (∀ q, r.Reaches (edgesOutside seed id) id q → r.Usable q) ∧
        ∀ q, q = id ∨ r.Reaches (edgesOutside seed id) id q →
          ¬ r.Reaches (edgesOutside seed id) q q) ∧
      ((∃ after, r.extendLink id seed = .ok () after) →
        ∀ q, q ∈ new ↔ q ≠ id ∧ r.Reaches (edgesOutside seed id) id q) := by
  obtain ⟨deps, new, hvisit, hresult⟩ := exists_linkVisit_of_extendLink r id seed
  have hnot : id ∉ new := fun hmem => (hvisit.fresh id hmem).1 List.mem_cons_self
  refine ⟨new, hresult, hvisit.nodup, fun q hq => (hvisit.fresh q hq).2, hnot, hvisit.usable,
    ?_, ?_, ?_⟩
  · rintro before q rest rfl d hd
    exact List.mem_append.1 (hvisit.dependenciesFirst.edges_before hd)
  · rw [exists_extendLink_iff, contains, Option.isSome_iff_exists, ← mem_ids_iff]
    constructor
    · rintro ⟨hid, hsound⟩
      exact ⟨hid, hsound.usable, hsound.acyclic⟩
    · rintro ⟨hid, husable, hacyclic⟩
      exact ⟨hid, husable, hacyclic⟩
  · rintro ⟨after, hok⟩ q
    have hsame : r.extendLink id seed = .ok () (seed ++ new) := by
      rcases hresult with hdone | ⟨e, herror⟩
      · exact hdone
      · rw [hok] at herror
        cases herror
    obtain ⟨-, added, hadded, heq⟩ := extendLink_eq_ok_iff.1 hsame
    obtain rfl := List.append_cancel_left heq
    rw [← hadded.mem_iff_outside]
    constructor
    · exact fun hq => ⟨fun heq => hnot (heq ▸ hq), hq⟩
    · exact fun hq => hq.2

end Extensions

end Registry

end NativeBuild
