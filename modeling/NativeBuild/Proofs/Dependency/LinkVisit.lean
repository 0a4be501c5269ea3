import NativeBuild.Dependency.Closure

/-!
# Visits of the link closure

The search behind the link closure carries two lists: the path of ids that it is inside
of, and the ids that it has found.  This module says which visits succeed and what they
add, without the recursion on what is missing.

Main definitions:

- `Registry.LinkVisit`: a visit that succeeds, with the ids that it adds.
- `Registry.DependenciesFirst`: a list in which every id comes after its dependencies.

Main results:

- Theorems `linkVisit_of_visitLinks` and `LinkVisit.visitLinks`: the search succeeds
  exactly along a visit.
- Theorems `LinkVisit.fresh`, `LinkVisit.nodup`, `LinkVisit.covers`, `LinkVisit.usable` and
  `LinkVisit.dependenciesFirst`: what a visit adds.
-/

namespace NativeBuild

namespace Registry

variable {r : Registry}

/-! ## Dependencies of registered ids -/

/-- A registered project has its libraries as link dependencies. -/
theorem edges_linkEdges {id : String} {p : Project} (hp : r.get? id = some p) :
    r.edges linkEdges id = p.libs := by
  simp [edges, hp, linkEdges]

/-- What an id depends on, it reaches together with all that is reached from there. -/
theorem Reaches.head {follow : Project → List String} {a b c : String}
    (hb : b ∈ r.edges follow a) (hbc : r.Reaches follow b c) : r.Reaches follow a c :=
  (Reaches.step hb).trans hbc

/-- Looking up a dependency succeeds exactly when it is usable. -/
theorem exists_resolve_eq_ok_iff (project : String) {id : String} :
    (∃ dep, r.resolve project id = .ok dep) ↔ r.Usable id := by
  simp only [resolve_eq_ok_iff, Usable]

/-! ## The search, case by case -/

section Search

variable {project id : String} {rest path found : List String}

/-- Without dependencies nothing is visited. -/
theorem visitLinks_nil : r.visitLinks project [] path found = .ok () found := by
  rw [visitLinks]

/-- A dependency on the path closes a cycle. -/
theorem visitLinks_of_mem_path (hpath : id ∈ path) :
    r.visitLinks project (id :: rest) path found =
      .error (.cyclicDependency (path.dropWhile (· != id) ++ [id])) found := by
  rw [visitLinks, dif_pos hpath]

/-- A dependency that was found is passed over. -/
theorem visitLinks_of_mem_found (hpath : id ∉ path) (hfound : id ∈ found) :
    r.visitLinks project (id :: rest) path found = r.visitLinks project rest path found := by
  rw [visitLinks, dif_neg hpath, if_pos hfound]

/-- A dependency that cannot be resolved ends the visit. -/
theorem visitLinks_of_resolve_error (hpath : id ∉ path) (hfound : id ∉ found) {e : BuildError}
    (hdep : r.resolve project id = .error e) :
    r.visitLinks project (id :: rest) path found = .error e found := by
  rw [visitLinks, dif_neg hpath, if_neg hfound]
  split
  · next h =>
      rw [hdep] at h
      cases h
      rfl
  · next h =>
      rw [hdep] at h
      cases h

/-- A dependency that is resolved is visited first, and found after all that it depends on. -/
theorem visitLinks_of_resolve_ok (hpath : id ∉ path) (hfound : id ∉ found) {dep : Project}
    (hdep : r.resolve project id = .ok dep) :
    r.visitLinks project (id :: rest) path found =
      match r.visitLinks dep.id dep.libs (path ++ [id]) found with
      | .error e inner => .error e inner
      | .ok () inner => r.visitLinks project rest path (inner ++ [id]) := by
  rw [visitLinks, dif_neg hpath, if_neg hfound]
  split
  · next h =>
      rw [hdep] at h
      cases h
  · next h =>
      rw [hdep] at h
      cases h
      rfl

end Search

/-! ## Visits -/

/-- A visit of dependencies that succeeds: below a path, with some ids found already, the
given dependencies make the search add the last list.  An id that was found is skipped;
any other must be usable, and is added after what its own dependencies add. -/
inductive LinkVisit (r : Registry) :
    List String → List String → List String → List String → Prop
  | done {path found : List String} : LinkVisit r path found [] []
  | skip {path found rest new : List String} {id : String} (hpath : id ∉ path)
      (hfound : id ∈ found) (hrest : LinkVisit r path found rest new) :
      LinkVisit r path found (id :: rest) new
  | enter {path found rest inner new : List String} {id : String} (hpath : id ∉ path)
      (hfound : id ∉ found) (husable : r.Usable id)
      (hinner : LinkVisit r (path ++ [id]) found (r.edges linkEdges id) inner)
      (hrest : LinkVisit r path (found ++ inner ++ [id]) rest new) :
      LinkVisit r path found (id :: rest) (inner ++ id :: new)

/-- A search that succeeds goes along a visit. -/
theorem linkVisit_of_visitLinks {project : String} {deps path found after : List String}
    (h : r.visitLinks project deps path found = .ok () after) :
    ∃ new, r.LinkVisit path found deps new ∧ after = found ++ new := by
  induction project, deps, path, found using visitLinks.induct r generalizing after with
  | case1 project path found =>
      rw [visitLinks_nil] at h
      cases h
      exact ⟨[], .done, by simp⟩
  | case2 project path found id rest hpath =>
      rw [visitLinks_of_mem_path hpath] at h
      cases h
  | case3 project path found id rest hpath hfound ih =>
      rw [visitLinks_of_mem_found hpath hfound] at h
      obtain ⟨new, hnew, rfl⟩ := ih h
      exact ⟨new, .skip hpath hfound hnew, rfl⟩
  | case4 project path found id rest hpath hfound e hdep =>
      rw [visitLinks_of_resolve_error hpath hfound hdep] at h
      cases h
  | case5 project path found id rest hpath hfound dep hdep e inner hinner ih =>
      rw [visitLinks_of_resolve_ok hpath hfound hdep, hinner] at h
      cases h
  | case6 project path found id rest hpath hfound dep hdep after' hinner ih ihrest =>
      rw [visitLinks_of_resolve_ok hpath hfound hdep, hinner] at h
      obtain ⟨inner, hvisit, rfl⟩ := ih hinner
      obtain ⟨new, hnew, rfl⟩ := ihrest h
      have hreg : r.get? id = some dep := (resolve_eq_ok_iff.1 hdep).1
      rw [← edges_linkEdges hreg] at hvisit
      have husable : r.Usable id := (exists_resolve_eq_ok_iff project).1 ⟨dep, hdep⟩
      exact ⟨inner ++ id :: new, .enter hpath hfound husable hvisit hnew, by simp⟩

/-- The search succeeds along every visit. -/
theorem LinkVisit.visitLinks {deps path found new : List String}
    (h : r.LinkVisit path found deps new) (project : String) :
    r.visitLinks project deps path found = .ok () (found ++ new) := by
  induction h generalizing project with
  | done => rw [visitLinks_nil, List.append_nil]
  | skip hpath hfound _ ih => rw [visitLinks_of_mem_found hpath hfound, ih]
  | enter hpath hfound husable _ _ ihinner ihrest =>
      obtain ⟨dep, hdep⟩ := (exists_resolve_eq_ok_iff project).2 husable
      have hreg := (resolve_eq_ok_iff.1 hdep).1
      rw [edges_linkEdges hreg] at ihinner
      rw [visitLinks_of_resolve_ok hpath hfound hdep, ihinner]
      simpa using ihrest project

/-! ## What a visit adds -/

section Added

variable {path found deps new : List String}

/-- A visit adds neither an id of its path nor one that was found before. -/
theorem LinkVisit.fresh (h : r.LinkVisit path found deps new) :
    ∀ q ∈ new, q ∉ path ∧ q ∉ found := by
  induction h with
  | done => simp
  | skip _ _ _ ih => exact ih
  | enter hpath hfound _ _ _ ihinner ihrest =>
      intro q hq
      rcases List.mem_append.1 hq with hq | hq
      · have hfresh := ihinner q hq
        exact ⟨fun h => hfresh.1 (List.mem_append_left _ h), hfresh.2⟩
      · rcases List.mem_cons.1 hq with rfl | hq
        · exact ⟨hpath, hfound⟩
        · have hfresh := ihrest q hq
          exact ⟨hfresh.1, fun h => hfresh.2 (by simp [h])⟩

/-- What a visit below a project adds is not the project. -/
theorem LinkVisit.not_mem_of_last {id : String} (h : r.LinkVisit (path ++ [id]) found deps new) :
    id ∉ new :=
  fun hmem => (h.fresh id hmem).1 (by simp)

/-- A visit adds no id twice. -/
theorem LinkVisit.nodup (h : r.LinkVisit path found deps new) : new.Nodup := by
  induction h with
  | done => exact List.nodup_nil
  | skip _ _ _ ih => exact ih
  | enter _ _ _ hinner hrest ihinner ihrest =>
      refine List.nodup_append.2 ⟨ihinner, List.nodup_cons.2 ⟨fun hid => ?_, ihrest⟩, ?_⟩
      · exact (hrest.fresh _ hid).2 (by simp)
      · rintro q hq _ hmem rfl
        rcases List.mem_cons.1 hmem with rfl | hmem
        · exact (hinner.fresh _ hq).1 (by simp)
        · exact (hrest.fresh _ hmem).2 (by simp [hq])

/-- Afterwards all dependencies that were to be visited are found. -/
theorem LinkVisit.covers (h : r.LinkVisit path found deps new) :
    ∀ d ∈ deps, d ∈ found ++ new := by
  induction h with
  | done => simp
  | skip _ hfound _ ih =>
      intro d hd
      rcases List.mem_cons.1 hd with rfl | hd
      · exact List.mem_append_left _ hfound
      · exact ih d hd
  | enter _ _ _ _ _ _ ihrest =>
      intro d hd
      rcases List.mem_cons.1 hd with rfl | hd
      · simp
      · simpa using ihrest d hd

/-- All that a visit adds is usable. -/
theorem LinkVisit.usable (h : r.LinkVisit path found deps new) : ∀ q ∈ new, r.Usable q := by
  induction h with
  | done => simp
  | skip _ _ _ ih => exact ih
  | enter _ _ husable _ _ ihinner ihrest =>
      intro q hq
      rcases List.mem_append.1 hq with hq | hq
      · exact ihinner q hq
      · rcases List.mem_cons.1 hq with rfl | hq
        · exact husable
        · exact ihrest q hq

end Added

/-! ## Dependencies first -/

/-- Every id of a list depends only on ids that are known before or come earlier. -/
def DependenciesFirst (r : Registry) : List String → List String → Prop
  | _, [] => True
  | known, id :: rest =>
    (∀ q ∈ r.edges linkEdges id, q ∈ known) ∧ r.DependenciesFirst (known ++ [id]) rest

/-- A list has dependencies first exactly when its two parts have, the second after the first. -/
theorem dependenciesFirst_append {known order more : List String} :
    r.DependenciesFirst known (order ++ more) ↔
      r.DependenciesFirst known order ∧ r.DependenciesFirst (known ++ order) more := by
  induction order generalizing known with
  | nil => simp [DependenciesFirst]
  | cons id rest ih => simp [DependenciesFirst, ih, and_assoc]

/-- A visit adds dependencies before those that depend on them. -/
theorem LinkVisit.dependenciesFirst {path found deps new : List String}
    (h : r.LinkVisit path found deps new) : r.DependenciesFirst found new := by
  induction h with
  | done => trivial
  | skip _ _ _ ih => exact ih
  | enter _ _ _ hinner _ ihinner ihrest =>
      exact dependenciesFirst_append.2 ⟨ihinner, hinner.covers, ihrest⟩

/-- The dependencies of an id of such a list are known before, or come earlier. -/
theorem DependenciesFirst.edges_before {known before after : List String} {a q : String}
    (h : r.DependenciesFirst known (before ++ a :: after)) (hq : q ∈ r.edges linkEdges a) :
    q ∈ known ++ before :=
  (dependenciesFirst_append.1 h).2.1 q hq

/-- What an id of such a list reaches comes earlier, as long as nothing on the way was known
before. -/
theorem DependenciesFirst.mem_of_reaches_along {follow : Project → List String}
    {known before after : List String} {a q : String}
    (h : r.DependenciesFirst known (before ++ a :: after))
    (hfollow : ∀ b, ∀ d ∈ r.edges follow b, d ∈ r.edges linkEdges b)
    (hknown : ∀ d, r.Reaches follow a d → d ∉ known) (hreach : r.Reaches follow a q) :
    q ∈ before := by
  induction hreach with
  | step hb =>
      have hbefore := h.edges_before (hfollow _ _ hb)
      exact (List.mem_append.1 hbefore).resolve_left (hknown _ (.step hb))
  | tail hb hc ih =>
      obtain ⟨front, rest, rfl⟩ := List.append_of_mem ih
      rw [List.append_assoc] at h
      have hfront := h.edges_before (hfollow _ _ hc)
      exact List.mem_append_left _
        ((List.mem_append.1 hfront).resolve_left (hknown _ (hb.tail hc)))

/-- When nothing was known before, what an id of such a list reaches comes earlier. -/
theorem DependenciesFirst.mem_of_reaches {before after : List String} {a q : String}
    (h : r.DependenciesFirst [] (before ++ a :: after)) (hreach : r.Reaches linkEdges a q) :
    q ∈ before :=
  h.mem_of_reaches_along (fun _ _ hd => hd) (fun _ _ => List.not_mem_nil) hreach

end Registry

end NativeBuild
