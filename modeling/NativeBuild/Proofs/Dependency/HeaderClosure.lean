import NativeBuild.Proofs.Dependency.LinkVisit

/-!
# The header closure

The search behind the header closure has one list of ids that it has found and a list of
dependencies that are pending.  An id is added before its own dependencies become pending,
so that cycles do no harm.

Main definitions:

- `Registry.HeaderVisit`: a search that succeeds, with the ids that it adds.

Main results:

- Theorems `headerVisit_of_visitHeaders` and `HeaderVisit.visitHeaders`: the search
  succeeds exactly along such a visit.
- Theorem `mem_headerClosure_iff`: the closure holds what is reached, the project itself
  apart.
- Theorem `exists_headerClosure_iff`: there is a header closure exactly for registered ids
  that reach nothing unusable but themselves.
- Theorem `extendHeaders_eq_error`: where an extension fails, the id or a dependency that was
  looked up is at fault.
- Theorem `headerClosure_of_reaches`: below a usable project that has a header closure,
  all that is reached has one.
- Theorem `headerClosure_exact`: what it holds and in which order, together with when it
  is there.
-/

namespace NativeBuild

namespace Registry

variable {r : Registry}

/-- The dependencies that header search follows are those of the registered project. -/
theorem edges_headerEdges {id : String} {p : Project} (hp : r.get? id = some p) :
    r.edges headerEdges id = p.dependencies := by
  simp [edges, hp, headerEdges]

/-- A dependency of an id is a library or an include of its project. -/
theorem exists_of_mem_headerEdges {a q : String} (h : q ∈ r.edges headerEdges a) :
    ∃ p, r.get? a = some p ∧ (q ∈ p.libs ∨ q ∈ p.includes) := by
  cases hp : r.get? a with
  | none => simp [edges, hp] at h
  | some p =>
      rw [edges_headerEdges hp, Project.dependencies] at h
      exact ⟨p, rfl, List.mem_append.1 h⟩

/-- Header search follows every library. -/
theorem mem_edges_headerEdges {a b : String} (h : b ∈ r.edges linkEdges a) :
    b ∈ r.edges headerEdges a := by
  cases hp : r.get? a with
  | none => simp [edges, hp] at h
  | some p =>
      rw [edges_linkEdges hp] at h
      rw [edges_headerEdges hp, Project.dependencies]
      exact List.mem_append_left _ h

/-- What is reached over libraries is reached in header search. -/
theorem Reaches.headers {a b : String} (h : r.Reaches linkEdges a b) :
    r.Reaches headerEdges a b := by
  induction h with
  | step hb => exact .step (mem_edges_headerEdges hb)
  | tail _ hc ih => exact ih.tail (mem_edges_headerEdges hc)

/-- The dependencies of a project become pending as they are. -/
theorem map_snd_pending (project : String) (ids : List String) :
    (ids.map fun next => (project, next)).map Prod.snd = ids := by
  simp [Function.comp_def]

/-! ## The search, case by case -/

section Search

variable {root project id : String} {rest : List (String × String)} {found : List String}

/-- Without pending dependencies nothing is visited. -/
theorem visitHeaders_nil : r.visitHeaders root [] found = .ok () found := by
  rw [visitHeaders]

/-- A pending dependency that is the root or was found is passed over. -/
theorem visitHeaders_of_skip (hskip : id = root ∨ id ∈ found) :
    r.visitHeaders root ((project, id) :: rest) found = r.visitHeaders root rest found := by
  rw [visitHeaders, dif_pos hskip]

/-- A pending dependency that cannot be resolved ends the visit. -/
theorem visitHeaders_of_resolve_error (hnew : ¬ (id = root ∨ id ∈ found)) {e : BuildError}
    (hdep : r.resolve project id = .error e) :
    r.visitHeaders root ((project, id) :: rest) found = .error e found := by
  rw [visitHeaders, dif_neg hnew]
  split
  · next h =>
      rw [hdep] at h
      cases h
      rfl
  · next h =>
      rw [hdep] at h
      cases h

/-- A pending dependency that is resolved is found, and its own dependencies come next. -/
theorem visitHeaders_of_resolve_ok (hnew : ¬ (id = root ∨ id ∈ found)) {dep : Project}
    (hdep : r.resolve project id = .ok dep) :
    r.visitHeaders root ((project, id) :: rest) found =
      r.visitHeaders root (dep.dependencies.map (fun next => (dep.id, next)) ++ rest)
        (found ++ [id]) := by
  rw [visitHeaders, dif_neg hnew]
  split
  · next h =>
      rw [hdep] at h
      cases h
  · next h =>
      rw [hdep] at h
      cases h
      rfl

end Search

/-- A search whose pending dependencies are those of projects at or below the root fails, if it
does, at a dependency of such a project that it cannot look up. -/
theorem exists_resolve_of_visitHeaders {root : String} {pending : List (String × String)}
    {found after : List String} {e : BuildError}
    (hpending : ∀ entry ∈ pending, (entry.1 = root ∨ r.Reaches headerEdges root entry.1) ∧
      entry.2 ∈ r.edges headerEdges entry.1)
    (h : r.visitHeaders root pending found = .error e after) :
    ∃ project id, (project = root ∨ r.Reaches headerEdges root project) ∧
      id ∈ r.edges headerEdges project ∧ r.resolve project id = .error e := by
  induction pending, found using visitHeaders.induct r root with
  | case1 found =>
      rw [visitHeaders_nil] at h
      cases h
  | case2 found project id rest hskip ih =>
      rw [visitHeaders_of_skip hskip] at h
      exact ih (fun entry hentry => hpending entry (List.mem_cons_of_mem _ hentry)) h
  | case3 found project id rest hnew other hdep =>
      rw [visitHeaders_of_resolve_error hnew hdep] at h
      cases h
      obtain ⟨hwithin, hedge⟩ := hpending _ List.mem_cons_self
      exact ⟨project, id, hwithin, hedge, hdep⟩
  | case4 found project id rest hnew dep hdep ih =>
      rw [visitHeaders_of_resolve_ok hnew hdep] at h
      have hreg : r.get? id = some dep := (resolve_eq_ok_iff.1 hdep).1
      obtain rfl := id_of_get? hreg
      refine ih ?_ h
      intro entry hentry
      rcases List.mem_append.1 hentry with hentry | hentry
      · -- What becomes pending is declared by the id that is entered, which is reached.
        obtain ⟨next, hnext, rfl⟩ := List.mem_map.1 hentry
        obtain ⟨hwithin, hedge⟩ := hpending _ List.mem_cons_self
        refine ⟨.inr ?_, by rwa [edges_headerEdges hreg]⟩
        rcases hwithin with rfl | hreach
        · exact .step hedge
        · exact hreach.tail hedge
      · exact hpending entry (List.mem_cons_of_mem _ hentry)

/-! ## Visits -/

/-- A search that succeeds, for a root that is never added: with some ids found and some
dependencies pending, it adds the last list. -/
inductive HeaderVisit (r : Registry) (root : String) :
    List String → List (String × String) → List String → Prop
  | done {found : List String} : HeaderVisit r root found [] []
  | skip {found new : List String} {project id : String} {rest : List (String × String)}
      (hskip : id = root ∨ id ∈ found) (hrest : HeaderVisit r root found rest new) :
      HeaderVisit r root found ((project, id) :: rest) new
  | enter {found new : List String} {project id : String} {rest : List (String × String)}
      (hnew : ¬ (id = root ∨ id ∈ found)) (husable : r.Usable id)
      (hrest : HeaderVisit r root (found ++ [id])
        ((r.edges headerEdges id).map (fun next => (id, next)) ++ rest) new) :
      HeaderVisit r root found ((project, id) :: rest) (id :: new)

variable {root : String}

/-- A search that succeeds goes along a visit. -/
theorem headerVisit_of_visitHeaders {pending : List (String × String)} {found after : List String}
    (h : r.visitHeaders root pending found = .ok () after) :
    ∃ new, r.HeaderVisit root found pending new ∧ after = found ++ new := by
  induction pending, found using visitHeaders.induct r root with
  | case1 found =>
      rw [visitHeaders_nil] at h
      cases h
      exact ⟨[], .done, by simp⟩
  | case2 found project id rest hskip ih =>
      rw [visitHeaders_of_skip hskip] at h
      obtain ⟨new, hnew, rfl⟩ := ih h
      exact ⟨new, .skip hskip hnew, rfl⟩
  | case3 found project id rest hnew e hdep =>
      rw [visitHeaders_of_resolve_error hnew hdep] at h
      cases h
  | case4 found project id rest hnew dep hdep ih =>
      rw [visitHeaders_of_resolve_ok hnew hdep] at h
      obtain ⟨new, hvisit, rfl⟩ := ih h
      have hreg : r.get? id = some dep := (resolve_eq_ok_iff.1 hdep).1
      obtain rfl := id_of_get? hreg
      rw [← edges_headerEdges hreg] at hvisit
      have husable := (exists_resolve_eq_ok_iff project).1 ⟨dep, hdep⟩
      exact ⟨dep.id :: new, .enter hnew husable hvisit, by simp⟩

/-- The search succeeds along every visit. -/
theorem HeaderVisit.visitHeaders {found new : List String} {pending : List (String × String)}
    (h : r.HeaderVisit root found pending new) :
    r.visitHeaders root pending found = .ok () (found ++ new) := by
  induction h with
  | done => rw [visitHeaders_nil, List.append_nil]
  | skip hskip _ ih => rw [visitHeaders_of_skip hskip, ih]
  | @enter found new project id rest hnew husable _ ih =>
      obtain ⟨dep, hdep⟩ := (exists_resolve_eq_ok_iff project).2 husable
      have hreg : r.get? id = some dep := (resolve_eq_ok_iff.1 hdep).1
      obtain rfl := id_of_get? hreg
      rw [visitHeaders_of_resolve_ok hnew hdep, ← edges_headerEdges hreg, ih]
      simp

/-! ## What a visit adds -/

section Added

variable {found new : List String} {pending : List (String × String)}

/-- All that a visit adds is usable. -/
theorem HeaderVisit.usable (h : r.HeaderVisit root found pending new) :
    ∀ q ∈ new, r.Usable q := by
  induction h with
  | done => simp
  | skip _ _ ih => exact ih
  | enter _ husable _ ih =>
      intro q hq
      rcases List.mem_cons.1 hq with rfl | hq
      · exact husable
      · exact ih q hq

/-- Afterwards all that was pending is found, the root apart. -/
theorem HeaderVisit.covers (h : r.HeaderVisit root found pending new) :
    ∀ d ∈ pending.map Prod.snd, d = root ∨ d ∈ found ++ new := by
  induction h with
  | done => simp
  | skip hskip _ ih =>
      intro d hd
      rcases List.mem_cons.1 hd with rfl | hd
      · exact hskip.imp_right (List.mem_append_left _)
      · exact ih d hd
  | enter _ _ _ ih =>
      intro d hd
      rcases List.mem_cons.1 hd with rfl | hd
      · simp
      · simpa using ih d (by simp [List.mem_map.1 hd])

/-- Afterwards all dependencies of what was added are found, the root apart. -/
theorem HeaderVisit.closed (h : r.HeaderVisit root found pending new) :
    ∀ q ∈ new, ∀ d ∈ r.edges headerEdges q, d = root ∨ d ∈ found ++ new := by
  induction h with
  | done => simp
  | skip _ _ ih => exact ih
  | enter _ _ hrest ih =>
      intro q hq d hd
      rcases List.mem_cons.1 hq with rfl | hq
      · simpa using hrest.covers d (by simp [hd])
      · simpa using ih q hq d hd

/-- A visit adds neither the root nor an id that was found before. -/
theorem HeaderVisit.fresh (h : r.HeaderVisit root found pending new) :
    ∀ q ∈ new, q ≠ root ∧ q ∉ found := by
  induction h with
  | done => simp
  | skip _ _ ih => exact ih
  | enter hnew _ _ ih =>
      intro q hq
      rcases List.mem_cons.1 hq with rfl | hq
      · exact not_or.1 hnew
      · obtain ⟨hroot, hfound⟩ := ih q hq
        exact ⟨hroot, fun hmem => hfound (List.mem_append_left _ hmem)⟩

/-- A visit adds no id twice. -/
theorem HeaderVisit.nodup (h : r.HeaderVisit root found pending new) : new.Nodup := by
  induction h with
  | done => exact List.nodup_nil
  | skip _ _ ih => exact ih
  | enter _ _ hrest ih =>
      exact List.nodup_cons.2 ⟨fun hmem => (hrest.fresh _ hmem).2 (by simp), ih⟩

/-- What a visit adds was pending, or is a dependency of what it added before. -/
theorem HeaderVisit.declared (h : r.HeaderVisit root found pending new)
    {before after : List String} {q : String} (hsplit : new = before ++ q :: after) :
    q ∈ pending.map Prod.snd ∨ ∃ a ∈ before, q ∈ r.edges headerEdges a := by
  induction h generalizing before with
  | done => simp at hsplit
  | skip _ _ ih => exact (ih hsplit).imp_left (List.mem_cons_of_mem _)
  | @enter found new project id rest _ _ _ ih =>
      rcases before with _ | ⟨first, before⟩
      · cases hsplit
        exact .inl List.mem_cons_self
      · cases hsplit
        rcases ih rfl with hpending | ⟨a, ha, hq⟩
        · rw [List.map_append, List.mem_append, map_snd_pending] at hpending
          rcases hpending with hedge | hrest
          · exact .inr ⟨id, List.mem_cons_self, hedge⟩
          · exact .inl (List.mem_cons_of_mem _ hrest)
        · exact .inr ⟨a, List.mem_cons_of_mem _ ha, hq⟩

/-- All that a visit adds was pending or is reached from what was. -/
theorem HeaderVisit.reached (h : r.HeaderVisit root found pending new) :
    ∀ q ∈ new, ∃ d ∈ pending.map Prod.snd, q = d ∨ r.Reaches headerEdges d q := by
  induction h with
  | done => simp
  | skip _ _ ih =>
      intro q hq
      obtain ⟨d, hd, hreach⟩ := ih q hq
      exact ⟨d, List.mem_cons_of_mem _ hd, hreach⟩
  | @enter found new project id rest _ _ _ ih =>
      intro q hq
      rcases List.mem_cons.1 hq with rfl | hq
      · exact ⟨q, List.mem_cons_self, .inl rfl⟩
      · obtain ⟨d, hd, hreach⟩ := ih q hq
        rw [List.map_append, List.mem_append, map_snd_pending] at hd
        rcases hd with hedge | hd
        · rcases hreach with rfl | hreach
          · exact ⟨id, List.mem_cons_self, .inr (.step hedge)⟩
          · exact ⟨id, List.mem_cons_self, .inr (.head hedge hreach)⟩
        · exact ⟨d, List.mem_cons_of_mem _ hd, hreach⟩

end Added

/-! ## When there is a closure -/

/-- A search succeeds when all that it can meet, the root apart, is usable. -/
theorem exists_headerVisit {pending : List (String × String)} {found : List String}
    (hpending : ∀ d ∈ pending.map Prod.snd, r.Reaches headerEdges root d)
    (husable : ∀ q, q ≠ root → r.Reaches headerEdges root q → r.Usable q) :
    ∃ new, r.HeaderVisit root found pending new := by
  induction pending, found using visitHeaders.induct r root with
  | case1 => exact ⟨[], .done⟩
  | case2 found project id rest hskip ih =>
      obtain ⟨new, hnew⟩ := ih fun d hd => hpending d (List.mem_cons_of_mem _ hd)
      exact ⟨new, .skip hskip hnew⟩
  | case3 found project id rest hnew e hdep =>
      have hid : r.Reaches headerEdges root id := hpending id List.mem_cons_self
      have hne : id ≠ root := fun heq => hnew (.inl heq)
      obtain ⟨dep, hok⟩ := (exists_resolve_eq_ok_iff project).2 (husable id hne hid)
      rw [hdep] at hok
      cases hok
  | case4 found project id rest hnew dep hdep ih =>
      have hreg : r.get? id = some dep := (resolve_eq_ok_iff.1 hdep).1
      obtain rfl := id_of_get? hreg
      have hid : r.Reaches headerEdges root dep.id := hpending dep.id List.mem_cons_self
      rw [← edges_headerEdges hreg] at ih
      obtain ⟨new, hvisit⟩ := ih (by
        intro d hd
        rw [List.map_append, List.mem_append, List.map_map] at hd
        rcases hd with hd | hd
        · obtain ⟨next, hnext, rfl⟩ := List.mem_map.1 hd
          exact hid.tail hnext
        · exact hpending d (List.mem_cons_of_mem _ hd))
      exact ⟨dep.id :: new,
        .enter hnew ((exists_resolve_eq_ok_iff project).1 ⟨dep, hdep⟩) hvisit⟩

/-- An extension that succeeds appends what a visit of the id's own dependencies adds. -/
theorem extendHeaders_eq_ok_iff {id : String} {seed after : List String} :
    r.extendHeaders id seed = .ok () after ↔
      id ∈ r.ids ∧
        ∃ new, r.HeaderVisit id seed ((r.edges headerEdges id).map fun next => (id, next)) new ∧
          after = seed ++ new := by
  rw [mem_ids_iff]
  cases hp : r.get? id with
  | none => simp [extendHeaders, require, hp]
  | some p =>
      obtain rfl := id_of_get? hp
      simp only [extendHeaders, require, hp, edges_headerEdges hp]
      constructor
      · exact fun h => ⟨⟨p, rfl⟩, headerVisit_of_visitHeaders h⟩
      · rintro ⟨-, new, h, rfl⟩
        exact h.visitHeaders

/-- A header closure is what an extension of the empty list leaves. -/
theorem headerClosure_eq_ok_iff_extendHeaders {id : String} {closure : List String} :
    r.headerClosure id = .ok closure ↔ r.extendHeaders id [] = .ok () closure := by
  unfold headerClosure
  cases r.extendHeaders id [] <;> simp

/-- There is none for the reason that the empty list cannot be extended. -/
theorem headerClosure_eq_error_iff {id : String} {e : BuildError} :
    r.headerClosure id = .error e ↔ ∃ found, r.extendHeaders id [] = .error e found := by
  unfold headerClosure
  cases r.extendHeaders id [] <;> simp

/-- A header closure is what a visit of the id's own dependencies adds. -/
theorem headerClosure_eq_ok_iff {id : String} {closure : List String} :
    r.headerClosure id = .ok closure ↔
      id ∈ r.ids ∧
        r.HeaderVisit id [] ((r.edges headerEdges id).map fun next => (id, next)) closure := by
  rw [headerClosure_eq_ok_iff_extendHeaders, extendHeaders_eq_ok_iff]
  simp

/-- The closure lists what the project reaches, itself apart. -/
theorem mem_headerClosure_iff {id : String} {closure : List String}
    (h : r.headerClosure id = .ok closure) {q : String} :
    q ∈ closure ↔ q ≠ id ∧ r.Reaches headerEdges id q := by
  have hvisit := (headerClosure_eq_ok_iff.1 h).2
  constructor
  · intro hq
    obtain ⟨d, hedge, hreach⟩ := hvisit.reached q hq
    rw [map_snd_pending] at hedge
    rcases hreach with rfl | hreach
    · exact ⟨(hvisit.fresh q hq).1, .step hedge⟩
    · exact ⟨(hvisit.fresh q hq).1, .head hedge hreach⟩
  · rintro ⟨hne, hreach⟩
    have hmem : q = id ∨ q ∈ closure := by
      clear hne
      induction hreach with
      | step hb => simpa using hvisit.covers _ (by simpa using hb)
      | tail _ hc ih =>
          rcases ih with rfl | ih
          · simpa using hvisit.covers _ (by simpa using hc)
          · simpa using hvisit.closed _ ih _ hc
    exact hmem.resolve_left hne

/-- There is a header closure exactly for registered ids that reach nothing unusable but
themselves. -/
theorem exists_headerClosure_iff {id : String} :
    (∃ closure, r.headerClosure id = .ok closure) ↔
      id ∈ r.ids ∧ ∀ q, q ≠ id → r.Reaches headerEdges id q → r.Usable q := by
  constructor
  · rintro ⟨closure, h⟩
    obtain ⟨hid, hvisit⟩ := headerClosure_eq_ok_iff.1 h
    exact ⟨hid, fun q hne hq => hvisit.usable q ((mem_headerClosure_iff h).2 ⟨hne, hq⟩)⟩
  · rintro ⟨hid, husable⟩
    have hexists : ∃ closure, r.HeaderVisit id []
        ((r.edges headerEdges id).map fun next => (id, next)) closure := by
      apply exists_headerVisit _ husable
      intro d hd
      rw [List.map_map] at hd
      obtain ⟨next, hnext, rfl⟩ := List.mem_map.1 hd
      exact .step hnext
    obtain ⟨closure, hvisit⟩ := hexists
    exact ⟨closure, headerClosure_eq_ok_iff.2 ⟨hid, hvisit⟩⟩

/-- An extension that fails is one of an id that is not registered, or a dependency at or below
the id cannot be looked up. -/
theorem extendHeaders_eq_error {id : String} {seed after : List String} {e : BuildError}
    (h : r.extendHeaders id seed = .error e after) :
    (r.get? id = none ∧ e = .projectNotFound id) ∨
      ∃ project q, (project = id ∨ r.Reaches headerEdges id project) ∧
        q ∈ r.edges headerEdges project ∧ r.resolve project q = .error e := by
  unfold extendHeaders require at h
  cases hp : r.get? id with
  | none =>
      simp only [hp] at h
      cases h
      exact .inl ⟨rfl, rfl⟩
  | some p =>
      obtain rfl := id_of_get? hp
      simp only [hp] at h
      refine .inr (exists_resolve_of_visitHeaders ?_ h)
      intro entry hentry
      obtain ⟨next, hnext, rfl⟩ := List.mem_map.1 hentry
      exact ⟨.inl rfl, by rwa [edges_headerEdges hp]⟩

/-- Without a header closure, the id is not registered or a dependency cannot be looked
up. -/
theorem headerClosure_eq_error {id : String} {e : BuildError}
    (h : r.headerClosure id = .error e) :
    e = .projectNotFound id ∨ ∃ project q, r.resolve project q = .error e := by
  obtain ⟨found, hextend⟩ := headerClosure_eq_error_iff.1 h
  rcases extendHeaders_eq_error hextend with ⟨-, hmissing⟩ | ⟨project, q, -, -, hresolve⟩
  · exact .inl hmissing
  · exact .inr ⟨project, q, hresolve⟩

/-- Below a usable project that has a header closure, all that is reached has one. -/
theorem headerClosure_of_reaches {id : String} (hid : r.Usable id)
    (h : ∃ closure, r.headerClosure id = .ok closure) {q : String}
    (hq : r.Reaches headerEdges id q) : ∃ closure, r.headerClosure q = .ok closure := by
  have husable : ∀ a, r.Reaches headerEdges id a → r.Usable a := by
    intro a ha
    by_cases heq : a = id
    · rw [heq]
      exact hid
    · exact (exists_headerClosure_iff.1 h).2 a heq ha
  obtain ⟨p, hp, -⟩ := husable q hq
  exact exists_headerClosure_iff.2
    ⟨mem_ids_iff.2 ⟨p, hp⟩, fun a _ ha => husable a (hq.trans ha)⟩

/-- Looking up a dependency finds no cycle. -/
theorem resolve_ne_cyclicDependency (project id : String) (cycle : List String) :
    r.resolve project id ≠ .error (.cyclicDependency cycle) := by
  unfold resolve dependency
  cases r.get? id with
  | none => simp
  | some dep => cases hkind : dep.kind.isKnown <;> simp [hkind]

/-- The header closure is exact, whatever cycles there are.  There is one if and only if the
id is registered and all that it reaches over libraries and includes, itself apart, is
registered with a known kind.  It then lists what is reached, each id once, without the
project itself, and each as a library or an include of the project or of an id that stands
before it.  No cycle is ever complained of. -/
theorem headerClosure_exact (r : Registry) (id : String) :
    ((∃ closure, r.headerClosure id = .ok closure) ↔
      r.contains id = true ∧ ∀ q, q ≠ id → r.Reaches headerEdges id q → r.Usable q) ∧
    (∀ closure, r.headerClosure id = .ok closure →
      closure.Nodup ∧
      id ∉ closure ∧
      (∀ q, q ∈ closure ↔ q ≠ id ∧ r.Reaches headerEdges id q) ∧
      ∀ before q after, closure = before ++ q :: after →
        ∃ a p, (a = id ∨ a ∈ before) ∧ r.get? a = some p ∧ (q ∈ p.libs ∨ q ∈ p.includes)) ∧
    ∀ cycle, r.headerClosure id ≠ .error (.cyclicDependency cycle) := by
  refine ⟨?_, fun closure h => ⟨?_, ?_, fun q => mem_headerClosure_iff h, ?_⟩, ?_⟩
  · rw [exists_headerClosure_iff, contains, Option.isSome_iff_exists, ← mem_ids_iff]
  · exact (headerClosure_eq_ok_iff.1 h).2.nodup
  · exact fun hmem => ((mem_headerClosure_iff h).1 hmem).1 rfl
  · intro before q after hsplit
    have hdeclared := (headerClosure_eq_ok_iff.1 h).2.declared hsplit
    rw [map_snd_pending] at hdeclared
    have hedge : ∃ a, (a = id ∨ a ∈ before) ∧ q ∈ r.edges headerEdges a := by
      rcases hdeclared with hown | ⟨a, ha, hq⟩
      · exact ⟨id, .inl rfl, hown⟩
      · exact ⟨a, .inr ha, hq⟩
    obtain ⟨a, ha, hq⟩ := hedge
    obtain ⟨p, hp, hmem⟩ := exists_of_mem_headerEdges hq
    exact ⟨a, p, ha, hp, hmem⟩
  · intro cycle h
    rcases headerClosure_eq_error h with hmissing | ⟨project, q, hresolve⟩
    · cases hmissing
    · exact resolve_ne_cyclicDependency project q cycle hresolve

end Registry

end NativeBuild
