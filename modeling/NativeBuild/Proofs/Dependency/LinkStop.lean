import Mathlib.Data.List.Chain
import NativeBuild.Proofs.Dependency.LinkVisit

/-!
# Searches of the link closure that fail

A search that fails stops at one dependency: an id of its own path, or one that cannot be
looked up.  What it found on the way stays found; it is what a visit of other dependencies
would have added.

Main definitions:

- `Registry.LinkStop`: a search that fails, with its error and the ids that it adds.
- `Registry.Trail`: the path of a search, from where it started to the project it is in.

Main results:

- Theorem `linkStop_of_visitLinks`: a search that fails goes along such a stop.
- Theorem `LinkStop.exists_linkVisit`: what it leaves is what a visit adds.
- Theorem `LinkStop.cause`: it stops at the end of a trail.
-/

namespace NativeBuild

namespace Registry

variable {r : Registry}

/-! ## Stops -/

/-- A search that fails: for the dependencies of a project, below a path and with some ids
found already, it ends with an error after it has added the last list.  It fails at an id of the
path or at one that is refused, either here, below an id that it enters, or after one. -/
inductive LinkStop (r : Registry) :
    String → List String → List String → List String → BuildError → List String → Prop
  | cycle {project id : String} {path found rest : List String} (hpath : id ∈ path) :
      LinkStop r project path found (id :: rest)
        (.cyclicDependency (path.dropWhile (· != id) ++ [id])) []
  | refused {project id : String} {path found rest : List String} {e : BuildError}
      (hpath : id ∉ path) (hfound : id ∉ found) (hdep : r.resolve project id = .error e) :
      LinkStop r project path found (id :: rest) e []
  | skip {project id : String} {path found rest new : List String} {e : BuildError}
      (hpath : id ∉ path) (hfound : id ∈ found) (hrest : LinkStop r project path found rest e new) :
      LinkStop r project path found (id :: rest) e new
  | inside {project id : String} {path found rest new : List String} {e : BuildError}
      (hpath : id ∉ path) (hfound : id ∉ found) (husable : r.Usable id)
      (hinner : LinkStop r id (path ++ [id]) found (r.edges linkEdges id) e new) :
      LinkStop r project path found (id :: rest) e new
  | later {project id : String} {path found rest inner new : List String} {e : BuildError}
      (hpath : id ∉ path) (hfound : id ∉ found) (husable : r.Usable id)
      (hinner : r.LinkVisit (path ++ [id]) found (r.edges linkEdges id) inner)
      (hrest : LinkStop r project path (found ++ inner ++ [id]) rest e new) :
      LinkStop r project path found (id :: rest) e (inner ++ id :: new)

/-- A search that fails goes along a stop. -/
theorem linkStop_of_visitLinks {project : String} {deps path found after : List String}
    {e : BuildError} (h : r.visitLinks project deps path found = .error e after) :
    ∃ new, r.LinkStop project path found deps e new ∧ after = found ++ new := by
  induction project, deps, path, found using visitLinks.induct r generalizing after with
  | case1 project path found =>
      rw [visitLinks_nil] at h
      cases h
  | case2 project path found id rest hpath =>
      rw [visitLinks_of_mem_path hpath] at h
      cases h
      exact ⟨[], .cycle hpath, by simp⟩
  | case3 project path found id rest hpath hfound ih =>
      rw [visitLinks_of_mem_found hpath hfound] at h
      obtain ⟨new, hnew, rfl⟩ := ih h
      exact ⟨new, .skip hpath hfound hnew, rfl⟩
  | case4 project path found id rest hpath hfound other hdep =>
      rw [visitLinks_of_resolve_error hpath hfound hdep] at h
      cases h
      exact ⟨[], .refused hpath hfound hdep, by simp⟩
  | case5 project path found id rest hpath hfound dep hdep other stopped hstopped ih =>
      rw [visitLinks_of_resolve_ok hpath hfound hdep, hstopped] at h
      cases h
      obtain ⟨new, hnew, rfl⟩ := ih hstopped
      have hreg : r.get? id = some dep := (resolve_eq_ok_iff.1 hdep).1
      obtain rfl := id_of_get? hreg
      rw [← edges_linkEdges hreg] at hnew
      have husable : r.Usable dep.id := (exists_resolve_eq_ok_iff project).1 ⟨dep, hdep⟩
      exact ⟨new, .inside hpath hfound husable hnew, rfl⟩
  | case6 project path found id rest hpath hfound dep hdep inner hinner _ ihrest =>
      rw [visitLinks_of_resolve_ok hpath hfound hdep, hinner] at h
      obtain ⟨added, hvisit, rfl⟩ := linkVisit_of_visitLinks hinner
      obtain ⟨new, hnew, rfl⟩ := ihrest h
      have hreg : r.get? id = some dep := (resolve_eq_ok_iff.1 hdep).1
      rw [← edges_linkEdges hreg] at hvisit
      have husable : r.Usable id := (exists_resolve_eq_ok_iff project).1 ⟨dep, hdep⟩
      exact ⟨added ++ id :: new, .later hpath hfound husable hvisit hnew, by simp⟩

/-- An extension that fails is one of an id that is not registered, or a search that stops. -/
theorem extendLink_eq_error {id : String} {seed after : List String} {e : BuildError}
    (h : r.extendLink id seed = .error e after) :
    (r.get? id = none ∧ e = .projectNotFound id ∧ after = seed) ∨
      ∃ new, r.LinkStop id [id] seed (r.edges linkEdges id) e new ∧ after = seed ++ new := by
  unfold extendLink require at h
  cases hp : r.get? id with
  | none =>
      simp only [hp] at h
      cases h
      exact .inl ⟨rfl, rfl, rfl⟩
  | some p =>
      obtain rfl := id_of_get? hp
      simp only [hp] at h
      rw [edges_linkEdges hp]
      exact .inr (linkStop_of_visitLinks h)

/-! ## What a stop leaves -/

/-- A visit below a path is one below any shorter list of ids to keep off. -/
theorem LinkVisit.of_path {path path' found deps new : List String}
    (h : r.LinkVisit path found deps new) (hpath : ∀ q ∈ path', q ∈ path) :
    r.LinkVisit path' found deps new := by
  induction h generalizing path' with
  | done => exact .done
  | skip hnot hfound _ ih => exact .skip (fun hmem => hnot (hpath _ hmem)) hfound (ih hpath)
  | @enter path found rest inner new id hnot hfound husable _ _ ihinner ihrest =>
      refine .enter (fun hmem => hnot (hpath _ hmem)) hfound husable (ihinner ?_) (ihrest hpath)
      intro q hq
      rcases List.mem_append.1 hq with hq | hq
      · exact List.mem_append_left _ (hpath q hq)
      · exact List.mem_append_right _ hq

/-- What a search leaves when it stops is what the visit of other dependencies adds: of those
that it had entered and left again, at whatever depth. -/
theorem LinkStop.exists_linkVisit {project : String} {path found deps new : List String}
    {e : BuildError} (h : r.LinkStop project path found deps e new) :
    ∃ left, r.LinkVisit path found left new := by
  induction h with
  | cycle | refused => exact ⟨[], .done⟩
  | skip _ _ _ ih => exact ih
  | inside _ _ _ _ ih =>
      obtain ⟨left, hleft⟩ := ih
      exact ⟨left, hleft.of_path fun q hq => List.mem_append_left _ hq⟩
  | @later project id path found rest inner new e hpath hfound husable hinner _ ih =>
      obtain ⟨left, hleft⟩ := ih
      exact ⟨id :: left, .enter hpath hfound husable hinner hleft⟩

/-! ## Where a search stops -/

/-- A chain of ids, in the words of lists. -/
theorem chain_iff {follow : Project → List String} {ids : List String} :
    r.Chain follow ids ↔ ids.IsChain fun a b => b ∈ r.edges follow a := by
  induction ids with
  | nil => simp [Chain]
  | cons a rest ih =>
      cases rest with
      | nil => simp [Chain]
      | cons b rest => rw [Chain, ih, List.isChain_cons_cons]

/-- A chain goes on with what its last id depends on. -/
theorem Chain.concat {follow : Project → List String} {ids : List String} {a b : String}
    (h : r.Chain follow ids) (hlast : ids.getLast? = some a) (hedge : b ∈ r.edges follow a) :
    r.Chain follow (ids ++ [b]) := by
  rw [chain_iff, List.isChain_append]
  refine ⟨chain_iff.1 h, List.isChain_singleton b, ?_⟩
  intro last hends next hnext
  rw [hlast, Option.mem_some] at hends
  rw [List.head?_singleton, Option.mem_some] at hnext
  rwa [← hends, ← hnext]

/-- The first id of a chain reaches the others. -/
theorem Chain.reaches {follow : Project → List String} {a q : String} {ids : List String}
    (h : r.Chain follow (a :: ids)) (hq : q ∈ ids) : r.Reaches follow a q := by
  induction ids generalizing a with
  | nil => cases hq
  | cons b rest ih =>
      obtain ⟨hedge, hrest⟩ := h
      rcases List.mem_cons.1 hq with rfl | hq
      · exact .step hedge
      · exact .head hedge (ih hrest hq)

/-- The path of a search: different ids, each of which depends on the next, from the root of the
search to the project that it is in. -/
structure Trail (r : Registry) (root project : String) (path : List String) : Prop where
  starts : path.head? = some root
  ends : path.getLast? = some project
  nodup : path.Nodup
  chain : r.Chain linkEdges path

variable {root project id : String} {path : List String}

/-- A search starts with a trail of its root alone. -/
theorem Trail.start (r : Registry) (root : String) : r.Trail root root [root] :=
  ⟨rfl, rfl, by simp, trivial⟩

/-- A search goes on from the project that it is in to one of its dependencies. -/
theorem Trail.push (h : r.Trail root project path) (hid : id ∈ r.edges linkEdges project)
    (hnew : id ∉ path) : r.Trail root id (path ++ [id]) where
  starts := by rw [List.head?_append, h.starts, Option.some_or]
  ends := List.getLast?_concat
  nodup := by simpa [List.nodup_append] using ⟨h.nodup, fun q hq heq => hnew (heq ▸ hq)⟩
  chain := h.chain.concat h.ends hid

/-- Every id of the path is the root or is reached from it. -/
theorem Trail.reaches (h : r.Trail root project path) {q : String} (hq : q ∈ path) :
    q = root ∨ r.Reaches linkEdges root q := by
  obtain ⟨rest, rfl⟩ := List.head?_eq_some_iff.1 h.starts
  exact (List.mem_cons.1 hq).imp_right h.chain.reaches

/-- So is the project that the search is in. -/
theorem Trail.within (h : r.Trail root project path) :
    project = root ∨ r.Reaches linkEdges root project :=
  h.reaches (List.mem_of_getLast? h.ends)

/-- A dependency on an id of the path closes a cycle: the path from that id on. -/
theorem Trail.cycle (h : r.Trail root project path) (hid : id ∈ r.edges linkEdges project)
    (hpath : id ∈ path) :
    ∃ rest, path.dropWhile (· != id) ++ [id] = id :: rest ++ [id] ∧ (id :: rest).Nodup ∧
      r.Chain linkEdges (id :: rest ++ [id]) := by
  obtain ⟨front, rest, rfl, hfront⟩ := List.eq_append_cons_of_mem hpath
  have hdrop : (front ++ id :: rest).dropWhile (· != id) = id :: rest := by
    rw [List.dropWhile_append_of_pos]
    · simp
    · intro q hq
      simpa using ne_of_mem_of_not_mem hq hfront
  have hback : r.Chain linkEdges (id :: rest) :=
    chain_iff.2 (chain_iff.1 h.chain).right_of_append
  have hends : (id :: rest).getLast? = some project := by
    rw [← h.ends, List.getLast?_append_of_ne_nil _ (List.cons_ne_nil id rest)]
  exact ⟨rest, by rw [hdrop], (List.nodup_append.1 h.nodup).2.1, hback.concat hends hid⟩

/-- A search that fails stops at the end of a trail, at a dependency that closes a cycle or
cannot be looked up. -/
theorem LinkStop.cause {found deps new : List String} {e : BuildError}
    (h : r.LinkStop project path found deps e new) (htrail : r.Trail root project path)
    (hdeps : ∀ d ∈ deps, d ∈ r.edges linkEdges project) :
    ∃ last trail q, r.Trail root last trail ∧ q ∈ r.edges linkEdges last ∧
      (q ∈ trail ∧ e = .cyclicDependency (trail.dropWhile (· != q) ++ [q]) ∨
        r.resolve last q = .error e) := by
  induction h with
  | cycle hpath => exact ⟨_, _, _, htrail, hdeps _ List.mem_cons_self, .inl ⟨hpath, rfl⟩⟩
  | refused _ _ hdep => exact ⟨_, _, _, htrail, hdeps _ List.mem_cons_self, .inr hdep⟩
  | skip _ _ _ ih => exact ih htrail fun d hd => hdeps d (List.mem_cons_of_mem _ hd)
  | inside hpath _ _ _ ih =>
      exact ih (htrail.push (hdeps _ List.mem_cons_self) hpath) fun _ hd => hd
  | later _ _ _ _ _ ih => exact ih htrail fun d hd => hdeps d (List.mem_cons_of_mem _ hd)

end Registry

end NativeBuild
