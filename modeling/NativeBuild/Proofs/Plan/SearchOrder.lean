import Mathlib
import NativeBuild.Proofs.Dependency.ClosedSeed
import NativeBuild.Proofs.Plan.Dependencies
import NativeBuild.Proofs.Project.Layout

/-!
# The search order of headers

Headers are searched in the project itself, in what is generated for it, in its link closure and
in its header closure.  The two closures overlap and have different orders; of directories that
are the same, however they are written, the first is kept.  Where the roots of projects are
different, so are their directories, and what is dropped from the header closure is exactly the
link closure.

Main definitions:

- `firstEntries`: the paths of a list with no earlier path that is the same.
- `Registry.RootsDiffer`: no two projects have the same root.

Main results:

- Theorem `distinct_eq_firstEntries`: which paths stay when repeated ones are dropped.
- Theorem `distinct_append`: what stays of a list after another one.
- Theorem `Registry.searchOrder_exact`: when there is a search order, and which it is.
-/

namespace NativeBuild

/-! ## Paths without repetitions -/

/-- The paths of a list with no earlier path that is the same, in their order. -/
def firstEntries (paths : List Path) : List Path :=
  (paths.zipIdx.filter fun entry =>
    (paths.take entry.2).all fun earlier => !earlier.same entry.1).map (·.1)

/-- After one path, those that are the same are not first entries. -/
theorem firstEntries_cons (path : Path) (rest : List Path) :
    firstEntries (path :: rest) =
      path :: (firstEntries rest).filter fun other => !path.same other := by
  have hzip : rest.zipIdx 1 = rest.zipIdx.map fun entry => (entry.1, entry.2 + 1) := by
    rw [List.zipIdx_succ]
  rw [firstEntries, List.zipIdx_cons, List.filter_cons_of_pos (by simp), List.map_cons, hzip]
  simp only [firstEntries, List.filter_map, List.map_map, List.filter_filter, Function.comp_def,
    List.take_succ_cons, List.all_cons]

/-- Of paths that are the same, the first stays, and at its place. -/
theorem distinct_eq_firstEntries (paths : List Path) : distinct paths = firstEntries paths := by
  induction paths with
  | nil => rfl
  | cons path rest ih => rw [distinct, ih, firstEntries_cons]

/-- Of a list after another one, what has nothing the same in the other one stays. -/
theorem distinct_append (front back : List Path) :
    distinct (front ++ back) =
      distinct front ++ (distinct back).filter fun path =>
        front.all fun earlier => !earlier.same path := by
  induction front with
  | nil => simp [distinct]
  | cons path rest ih =>
      simp only [List.cons_append, distinct, ih, List.filter_append, List.filter_filter,
        List.all_cons]

/-- Where no two paths are the same, all stay. -/
theorem distinct_of_pairwise {paths : List Path}
    (h : paths.Pairwise fun a b => a.same b = false) : distinct paths = paths := by
  induction h with
  | nil => rfl
  | cons hfirst _ ih =>
      rw [distinct, ih, List.filter_eq_self.2]
      intro other hother
      simp [hfirst other hother]

/-! ## The search order -/

namespace Registry

variable {r : Registry} {p : Project}

/-- No two projects have the same root. -/
def RootsDiffer (r : Registry) : Prop :=
  ∀ p ∈ r.projects, ∀ q ∈ r.projects, p.id ≠ q.id → p.root.same q.root = false

/-- The project's own directories stay before all others. -/
theorem distinct_own (p : Project) (paths : List Path) :
    ∃ rest, distinct (p.includeDir :: p.objDir :: paths) = p.includeDir :: p.objDir :: rest := by
  rw [distinct, distinct,
    List.filter_cons_of_pos (by rw [p.includeDir_same_objDir p, Bool.not_false])]
  exact ⟨_, rfl⟩

/-- A header closure lists no id twice. -/
theorem nodup_headerClosure {id : String} {headers : List String}
    (h : r.headerClosure id = .ok headers) : headers.Nodup :=
  (headerClosure_eq_ok_iff.1 h).2.nodup

/-- A header closure does not list the project itself. -/
theorem not_mem_headerClosure {id : String} {headers : List String}
    (h : r.headerClosure id = .ok headers) : id ∉ headers :=
  fun hmem => ((mem_headerClosure_iff h).1 hmem).1 rfl

/-! ## Different roots -/

/-- Where roots are different, so are the header directories of different ids. -/
theorem RootsDiffer.includeDir (h : r.RootsDiffer) {a b : String} {dep other : Project}
    (ha : r.get? a = some dep) (hb : r.get? b = some other) (hne : a ≠ b) :
    dep.includeDir.same other.includeDir = false := by
  obtain ⟨hdep, rfl⟩ := get?_eq_some_iff.1 ha
  obtain ⟨hother, rfl⟩ := get?_eq_some_iff.1 hb
  rw [Bool.eq_false_iff, ne_eq, Project.includeDir_same_iff, ← ne_eq, ← Bool.eq_false_iff]
  exact h dep hdep other hother hne

/-- Where roots are different, different ids have different header directories. -/
theorem RootsDiffer.pairwise_includeDirs (h : r.RootsDiffer) {ids : List String}
    (hnodup : ids.Nodup) : (r.includeDirs ids).Pairwise fun a b => a.same b = false := by
  refine List.pairwise_filterMap.2 (hnodup.imp fun {a b} hne path hpath other hother => ?_)
  obtain ⟨dep, hdep, rfl⟩ := Option.map_eq_some_iff.1 hpath
  obtain ⟨q, hq, rfl⟩ := Option.map_eq_some_iff.1 hother
  exact h.includeDir hdep hq hne

/-- Where roots are different, the header directory of an id is none of those of other ids. -/
theorem RootsDiffer.all_includeDirs (h : r.RootsDiffer) (ids : List String) {id : String}
    {dep : Project} (hdep : r.get? id = some dep) :
    ((r.includeDirs ids).all fun earlier => !earlier.same dep.includeDir) = decide (id ∉ ids) := by
  rw [Bool.eq_iff_iff, List.all_eq_true, decide_eq_true_iff]
  constructor
  · intro hall hid
    have hself := hall _ (mem_includeDirs.2 ⟨id, hid, dep, hdep, rfl⟩)
    rw [Path.same_iff.2 rfl] at hself
    cases hself
  · rintro hid _ hearlier
    obtain ⟨other, hother, q, hq, rfl⟩ := mem_includeDirs.1 hearlier
    rw [h.includeDir hq hdep (ne_of_mem_of_not_mem hother hid), Bool.not_false]

/-- Where roots are different, the header directories of some ids that are none of those of others
are those of the ids that are none of the others. -/
theorem RootsDiffer.filter_includeDirs (h : r.RootsDiffer) (links headers : List String) :
    ((r.includeDirs headers).filter fun path =>
        (r.includeDirs links).all fun earlier => !earlier.same path) =
      r.includeDirs (headers.filter (· ∉ links)) := by
  unfold includeDirs
  rw [List.filter_filterMap, List.filterMap_filter]
  refine List.filterMap_congr fun id _ => ?_
  cases hdep : r.get? id with
  | none => simp
  | some dep =>
      have hall := h.all_includeDirs links hdep
      rw [includeDirs] at hall
      simp [Option.filter, hall]

/-- Where roots are different, what stays of the header directories of both closures after the
directories of the project itself are those of the link closure and, of the header closure, those
of what is not in the link closure. -/
theorem RootsDiffer.distinct_searchOrder (h : r.RootsDiffer) (hp : r.get? p.id = some p)
    {links headers : List String} (hlinks : r.linkClosure p.id = .ok links)
    (hheaders : r.headerClosure p.id = .ok headers) :
    distinct (p.includeDir :: p.objDir :: r.includeDirs (links ++ headers)) =
      [p.includeDir, p.objDir] ++ r.includeDirs links ++
        r.includeDirs (headers.filter (· ∉ links)) := by
  have hfront : ([p.includeDir, p.objDir] ++ r.includeDirs links).Pairwise
      fun a b => a.same b = false := by
    have hown : (r.includeDirs (p.id :: links)).Pairwise fun a b => a.same b = false :=
      h.pairwise_includeDirs
        (List.nodup_cons.2 ⟨not_mem_linkClosure hlinks, nodup_linkClosure hlinks⟩)
    rw [includeDirs, List.filterMap_cons_some (by rw [hp]; rfl), ← includeDirs] at hown
    obtain ⟨hincludes, hrest⟩ := List.pairwise_cons.1 hown
    refine List.pairwise_cons.2 ⟨fun other hother => ?_,
      List.pairwise_cons.2 ⟨fun other hother => ?_, hrest⟩⟩
    · rcases List.mem_cons.1 hother with rfl | hother
      · exact p.includeDir_same_objDir p
      · exact hincludes other hother
    · obtain ⟨id, -, dep, -, rfl⟩ := mem_includeDirs.1 hother
      exact p.objDir_same_includeDir dep
  have hback : distinct (r.includeDirs headers) = r.includeDirs headers :=
    distinct_of_pairwise (h.pairwise_includeDirs (nodup_headerClosure hheaders))
  -- Of the project's own directories, no header directory of another project is one.
  have hfilter : ((r.includeDirs headers).filter fun path =>
      ([p.includeDir, p.objDir] ++ r.includeDirs links).all fun earlier => !earlier.same path) =
      (r.includeDirs headers).filter fun path =>
        (r.includeDirs links).all fun earlier => !earlier.same path := by
    refine List.filter_congr fun path hpath => ?_
    obtain ⟨id, hid, dep, hdep, rfl⟩ := mem_includeDirs.1 hpath
    have hne : p.id ≠ id := (ne_of_mem_of_not_mem hid (not_mem_headerClosure hheaders)).symm
    simp [h.includeDir hp hdep hne, p.objDir_same_includeDir dep]
  rw [includeDirs_append, ← List.cons_append, ← List.cons_append, distinct_append,
    show p.includeDir :: p.objDir :: r.includeDirs links =
      [p.includeDir, p.objDir] ++ r.includeDirs links from rfl,
    distinct_of_pairwise hfront, hback, hfilter, h.filter_includeDirs]

/-! ## The search order, exactly -/

/-- The search order is exact.  There is one if and only if there are both closures.  It starts
with the project's own headers and its generated ones, has the header directory of each member of
either closure, and keeps, of directories that are the same, the first in the project's own ones,
the link closure and the header closure, and only that.  Where roots are different, it is made of
the project's own directories, those of the link closure, and those of the members of the header
closure that the link closure does not have, each in order. -/
theorem searchOrder_exact (r : Registry) (p : Project) (hp : r.get? p.id = some p) :
    ((∃ paths, r.includePaths p = .ok paths) ↔
      (∃ links, r.linkClosure p.id = .ok links) ∧
        ∃ headers, r.headerClosure p.id = .ok headers) ∧
    ∀ links headers paths, r.linkClosure p.id = .ok links →
      r.headerClosure p.id = .ok headers → r.includePaths p = .ok paths →
      (paths.Pairwise fun a b => a.same b = false) ∧
      (∃ rest, paths = p.includeDir :: p.objDir :: rest) ∧
      (∀ id ∈ links ++ headers, ∃ dep, r.get? id = some dep ∧
        ∃ path ∈ paths, path.same dep.includeDir = true) ∧
      paths = firstEntries (p.includeDir :: p.objDir :: r.includeDirs (links ++ headers)) ∧
      (r.RootsDiffer →
        paths = [p.includeDir, p.objDir] ++ r.includeDirs links ++
          r.includeDirs (headers.filter (· ∉ links))) := by
  constructor
  · constructor
    · rintro ⟨paths, h⟩
      obtain ⟨links, headers, hlinks, hheaders, -⟩ := includePaths_eq_ok_iff.1 h
      exact ⟨⟨links, hlinks⟩, headers, hheaders⟩
    · rintro ⟨⟨links, hlinks⟩, headers, hheaders⟩
      exact ⟨_, includePaths_eq_ok_iff.2 ⟨links, headers, hlinks, hheaders, rfl⟩⟩
  · intro links headers paths hlinks hheaders h
    obtain ⟨_, _, hlinks', hheaders', rfl⟩ := includePaths_eq_ok_iff.1 h
    cases hlinks.symm.trans hlinks'
    cases hheaders.symm.trans hheaders'
    refine ⟨distinct_pairwise _, distinct_own p _, fun id hid => ?_, distinct_eq_firstEntries _,
      fun hroots => hroots.distinct_searchOrder hp hlinks hheaders⟩
    · obtain ⟨dep, hdep, -⟩ := usable_of_mem_closures hlinks hheaders id hid
      refine ⟨dep, hdep, mem_distinct ?_⟩
      exact List.mem_cons_of_mem _ (List.mem_cons_of_mem _
        (mem_includeDirs.2 ⟨id, hid, dep, hdep, rfl⟩))

end Registry

/-! ## A sample -/

namespace Sample

open Registry

/-- The editor's headers: its own, then those of its link closure, then those of the font, which
only the header closure has. -/
theorem editor_searchOrder :
    ∃ editor, editorRegistry.get? "editor" = some editor ∧
      editorRegistry.RootsDiffer ∧
      editorRegistry.linkClosure "editor" = .ok ["base", "paint", "lines"] ∧
      editorRegistry.headerClosure "editor" = .ok ["paint", "base", "font", "lines"] ∧
      ∃ paths, editorRegistry.includePaths editor = .ok paths ∧
        paths = [editor.includeDir, editor.objDir] ++
          editorRegistry.includeDirs ["base", "paint", "lines"] ++
          editorRegistry.includeDirs ["font"] := by
  have hroots : editorRegistry.RootsDiffer := by
    unfold RootsDiffer
    decide
  have hlinks : editorRegistry.linkClosure "editor" = .ok ["base", "paint", "lines"] := by cbv
  have hheaders :
      editorRegistry.headerClosure "editor" = .ok ["paint", "base", "font", "lines"] := by cbv
  obtain ⟨editor, heditor⟩ : ∃ editor, editorRegistry.get? "editor" = some editor := ⟨_, rfl⟩
  have hid : editor.id = "editor" := id_of_get? heditor
  obtain ⟨hexists, hexact⟩ := searchOrder_exact editorRegistry editor (by rw [hid, heditor])
  rw [hid] at hexists hexact
  obtain ⟨paths, hpaths⟩ := hexists.2 ⟨⟨_, hlinks⟩, _, hheaders⟩
  obtain ⟨-, -, -, -, hclosed⟩ := hexact _ _ _ hlinks hheaders hpaths
  exact ⟨editor, heditor, hroots, hlinks, hheaders, paths, hpaths, hclosed hroots⟩

end Sample

end NativeBuild
