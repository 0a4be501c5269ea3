import NativeBuild.Proofs.Path.Below

/-!
# Steps of paths

The pieces of a path that name something are its steps.  The directories above a path have all of
its first steps, nearest first.  Joining puts the steps of two paths one
after the other, whatever the texts look like.  The components of a joined path are those of the
directory and the steps of what is joined to it; seen from the empty path, however, a leading `.`
of what is joined stays in front.

Main definitions:

- `Path.steps`: the pieces of a path that name something.
- `Path.Descends`: a path that is not rooted and never steps up.
- `Path.Above`: what the directories above a path are, by its parts.

Main results:

- Theorem `steps_join`: the steps of a joined path.
- Theorem `Descends.components_eq`: a path that descends is its names, after a `.` or not.
- Theorem `Descends.components_join`: what is joined to a directory leaves its leading `.` behind.
- Theorems `steps_prefix_of_mem_ancestors`, `exists_ancestor_of_prefix` and
  `pairwise_ancestors`: the directories above a path, by their steps.
- Theorem `empty_or_root_of_parent?`: the paths with no directory above them.
-/

namespace NativeBuild

namespace Path

variable {p q : Path} {names : List FileName}

/-! ## Steps -/

/-- The pieces of a path that name something: names, and steps up. -/
def steps (p : Path) : List FileName :=
  (pieces p.bytes).filter fun piece => !isTrivial piece

/-- The steps of a path are those of its components. -/
theorem steps_eq_filterMap (p : Path) : p.steps = p.components.filterMap Component.piece? :=
  p.filter_pieces

/-- Joining puts the steps of two paths one after the other. -/
theorem steps_join (p : Path) {q : Path} (hq : q.isRooted = false) :
    (p.join q).steps = p.steps ++ q.steps := by
  by_cases hp : p.bytes = []
  · have hjoin : p.join q = q := by simp [join, hq, hp]
    have hempty : p.steps = [] := by simp [steps, hp, pieces, isTrivial]
    rw [hjoin, hempty, List.nil_append]
  · rw [steps_eq_filterMap, components_join hp hq, List.filterMap_append, filterMap_piece?,
      steps_eq_filterMap, steps]

/-- The steps of a path below a directory are those of the directory and then the names. -/
theorem steps_below (p : Path) (hnames : ∀ name ∈ names, name.Proper) :
    (p.below names).steps = p.steps ++ names := by
  rw [steps_eq_filterMap, components_below p hnames, List.filterMap_append,
    FileSystem.filterMap_piece?_names, steps_eq_filterMap]

/-- A path with a relative one joined to it is rooted exactly when it was before. -/
theorem isRooted_join (p : Path) {q : Path} (hq : q.isRooted = false) :
    (p.join q).isRooted = p.isRooted := by
  by_cases hp : p.bytes = []
  · have hjoin : p.join q = q := by simp [join, hq, hp]
    rw [hjoin, hq, isRooted, hp]
    rfl
  · rw [join, hq, if_neg (by simp)]
    split
    · exact isRooted_append hp _
    · exact isRooted_append hp _

/-! ## Paths that descend -/

/-- The path is not rooted and never steps up. -/
structure Descends (p : Path) : Prop where
  relative : p.isRooted = false
  notUp : Component.parent ∉ p.components

/-- A path that descends has no piece that steps up. -/
theorem Descends.dots_not_mem (h : p.Descends) : [dot, dot] ∉ pieces p.bytes := by
  intro hmem
  have hstep : [dot, dot] ∈ p.components.filterMap Component.piece? := by
    rw [← p.filter_pieces]
    exact List.mem_filter.2 ⟨hmem, by decide⟩
  obtain ⟨component, hcomponent, hpiece⟩ := List.mem_filterMap.1 hstep
  cases component with
  | root => cases hpiece
  | current => cases hpiece
  | parent => exact h.notUp hcomponent
  | name bytes =>
      -- Two full stops are never read as a name.
      cases hpiece
      have hnone : ∀ piece, component? piece ≠ some (.name [dot, dot]) := by
        intro piece hpiece
        unfold component? at hpiece
        split at hpiece
        · cases hpiece
        · split at hpiece
          · cases hpiece
          · next hup => exact hup (Component.name.inj (Option.some.inj hpiece))
      rcases List.mem_append.1 hcomponent with hanchor | hbody
      · cases hparts : p.parts.1 <;> simp [hparts, Anchor.components] at hanchor
      · obtain ⟨piece, -, hpiece⟩ := List.mem_filterMap.1 hbody
        exact hnone piece hpiece

/-- The pieces of a path that descends are read as its steps. -/
theorem Descends.filterMap_component? (h : p.Descends) :
    (pieces p.bytes).filterMap component? = p.steps.map .name := by
  obtain ⟨names, hnames⟩ := exists_names_iff.2 h.dots_not_mem
  have hsteps : p.steps = names := by
    rw [steps, ← filterMap_piece?, hnames, FileSystem.filterMap_piece?_names]
  rw [hnames, hsteps]

/-- A path that descends is its names, after a `.` or not. -/
theorem Descends.components_eq (h : p.Descends) :
    p.components = p.steps.map .name ∨ p.components = .current :: p.steps.map .name := by
  have hbody := h.filterMap_component?
  cases hpieces : pieces p.bytes with
  | nil => exact absurd hpieces (pieces_ne_nil p.bytes)
  | cons piece rest =>
      have hcomponents := components_of_pieces hpieces
      rw [hpieces] at hbody
      by_cases hempty : piece = []
      · by_cases hrest : rest = []
        · simp only [hempty, hrest] at hbody hcomponents
          simp only [if_true] at hcomponents
          exact .inl (hcomponents.trans hbody)
        · have hrooted : p.isRooted = true := by simp [isRooted_iff, hcomponents, hempty, hrest]
          cases h.relative.symm.trans hrooted
      · by_cases hdot : piece = [dot]
        · have hnone : component? piece = none := by simp [hdot, component?, isTrivial]
          rw [List.filterMap_cons_none hnone] at hbody
          rw [if_neg hempty, if_pos hdot, hbody] at hcomponents
          exact .inr hcomponents
        · rw [if_neg hempty, if_neg hdot, hbody] at hcomponents
          exact .inl hcomponents

/-- What is joined to a directory adds its steps, and leaves its leading `.` behind. -/
theorem Descends.components_join (hq : q.Descends) (hp : p.bytes ≠ []) :
    (p.join q).components = p.components ++ q.steps.map .name := by
  rw [Path.components_join hp hq.relative, hq.filterMap_component?]

/-! ## Directories above -/

/-- The steps of a path put together from its parts. -/
theorem steps_ofParts {anchor : Anchor} {body : List FileName}
    (hslash : ∀ piece ∈ body, slash ∉ piece)
    (hfirst : anchor = .none → ∀ piece, body.head? = some piece → isTrivial piece = false) :
    (ofParts anchor body).steps = body.filter fun piece => !isTrivial piece := by
  have hanchor : anchor.components.filterMap Component.piece? = [] := by cases anchor <;> rfl
  rw [steps_eq_filterMap, components_ofParts hslash hfirst, List.filterMap_append, hanchor,
    filterMap_piece?, List.nil_append]

/-- The steps of a path are those of its parts. -/
theorem steps_eq_filter_parts (p : Path) :
    p.steps = p.parts.2.filter fun piece => !isTrivial piece := by
  have hanchor : p.parts.1.components.filterMap Component.piece? = [] := by
    cases p.parts.1 <;> rfl
  rw [steps_eq_filterMap, components, List.filterMap_append, hanchor, filterMap_piece?,
    List.nil_append]

/-- A path is put together from its parts. -/
theorem ofParts_parts (p : Path) : ofParts p.parts.1 p.parts.2 = p := by
  obtain ⟨bytes⟩ := p
  have hjoin := joinPieces_pieces bytes
  unfold parts
  cases hpieces : pieces bytes with
  | nil => exact absurd hpieces (pieces_ne_nil bytes)
  | cons piece rest =>
      rw [hpieces] at hjoin
      by_cases hempty : piece = []
      · cases rest with
        | nil => simpa [hempty, ofParts, joinPieces] using hjoin
        | cons next others => simpa [hempty, ofParts, joinPieces] using hjoin
      · by_cases hdot : piece = [dot]
        · simpa [hdot, ofParts] using hjoin
        · simpa [hempty, hdot, ofParts] using hjoin

/-- More pieces make a text that is no shorter. -/
theorem length_joinPieces_le {front body : List FileName} (h : front <+: body) :
    (joinPieces front).length ≤ (joinPieces body).length := by
  induction front generalizing body with
  | nil => simp [joinPieces]
  | cons piece rest ih =>
      obtain ⟨others, rfl⟩ := h
      cases rest with
      | nil =>
          cases others with
          | nil => exact Nat.le_refl _
          | cons next more => simp [joinPieces]
      | cons next more =>
          have hrest := ih (List.prefix_append (next :: more) others)
          simp only [List.cons_append, joinPieces, List.length_append, List.length_cons]
          simp only [List.cons_append] at hrest
          omega

/-- A path with fewer of the pieces is no longer. -/
theorem length_ofParts_le (anchor : Anchor) {front body : List FileName} (h : front <+: body) :
    (ofParts anchor front).bytes.length ≤ (ofParts anchor body).bytes.length := by
  cases anchor with
  | root => exact Nat.succ_le_succ (length_joinPieces_le h)
  | current => exact length_joinPieces_le (List.cons_prefix_cons.2 ⟨rfl, h⟩)
  | none => exact length_joinPieces_le h

/-- What the directories above a path are, by its parts: they start where the path does, have the
steps of the path up to each but the last, fewer and fewer, and are no longer. -/
structure Above (anchor : Anchor) (body : List FileName) (paths : List Path) : Prop where
  rooted : ∀ q ∈ paths, q.isRooted = true ↔ anchor = .root
  prefixes : ∀ q ∈ paths, q.steps <+: body.filter fun piece => !isTrivial piece
  complete : ∀ front, front <+: (body.filter fun piece => !isTrivial piece) →
    front ≠ (body.filter fun piece => !isTrivial piece) → ∃ q ∈ paths, q.steps = front
  decreasing : paths.Pairwise fun q r => r.steps.length ≤ q.steps.length
  short : ∀ q ∈ paths, q.bytes.length ≤ (ofParts anchor body).bytes.length

/-- A path put together from its parts is rooted exactly by its anchor. -/
theorem isRooted_ofParts {anchor : Anchor} {body : List FileName}
    (hslash : ∀ piece ∈ body, slash ∉ piece)
    (hfirst : anchor = .none → ∀ piece, body.head? = some piece → isTrivial piece = false) :
    (ofParts anchor body).isRooted = true ↔ anchor = .root := by
  rw [isRooted_iff, components_ofParts hslash hfirst]
  cases anchor with
  | root => simp [Anchor.components]
  | current => simp [Anchor.components]
  | none =>
      simp only [Anchor.components, List.nil_append, reduceCtorEq, iff_false]
      exact fun hhead => root_not_mem_filterMap body (List.mem_of_head? hhead)

/-- Trivial pieces at the end are no steps. -/
theorem filter_trimEnd (body : List FileName) :
    ((trimEnd body).filter fun piece => !isTrivial piece) =
      body.filter fun piece => !isTrivial piece := by
  rw [← filterMap_piece?, ← filterMap_piece?, filterMap_trimEnd]

variable {anchor : Anchor} {body : List FileName} {piece : FileName} {paths : List Path}

/-- The directories above a path are no longer than the path with one more piece. -/
theorem Above.longer (h : Above anchor body paths) (piece : FileName) :
    ∀ q ∈ paths, q.bytes.length ≤ (ofParts anchor (body ++ [piece])).bytes.length :=
  fun q hq => Nat.le_trans (h.short q hq) (length_ofParts_le anchor (List.prefix_append _ _))

/-- A piece that is no step leaves the directories above as they are. -/
theorem Above.skip (h : Above anchor body paths) (htrivial : isTrivial piece = true) :
    Above anchor (body ++ [piece]) paths := by
  have hsteps : ((body ++ [piece]).filter fun piece => !isTrivial piece) =
      body.filter fun piece => !isTrivial piece := by simp [htrivial]
  refine ⟨h.rooted, ?_, ?_, h.decreasing, h.longer piece⟩
  · rw [hsteps]
    exact h.prefixes
  · rw [hsteps]
    exact h.complete

/-- A step has the directory before it as the first one above. -/
theorem Above.step (h : Above anchor body paths) (htrivial : isTrivial piece = false)
    (hslash : ∀ piece ∈ body, slash ∉ piece)
    (hfirst : anchor = .none → ∀ piece, body.head? = some piece → isTrivial piece = false) :
    Above anchor (body ++ [piece]) (ofParts anchor (trimEnd body) :: paths) := by
  have hinitial : trimEnd body <+: body := prefix_trimEnd body
  have hslashTrim : ∀ other ∈ trimEnd body, slash ∉ other :=
    fun other hother => hslash other (hinitial.subset hother)
  have hfirstTrim : anchor = .none → ∀ other, (trimEnd body).head? = some other →
      isTrivial other = false := by
    intro hanchor other hother
    obtain ⟨rest, hrest⟩ := hinitial
    refine hfirst hanchor other ?_
    rw [← hrest, List.head?_append, hother, Option.some_or]
  have hnearest := steps_ofParts hslashTrim hfirstTrim
  rw [filter_trimEnd] at hnearest
  have hsteps : ((body ++ [piece]).filter fun piece => !isTrivial piece) =
      (body.filter fun piece => !isTrivial piece) ++ [piece] := by simp [htrivial]
  refine ⟨?rooted, ?prefixes, ?complete, ?decreasing, ?short⟩
  case rooted =>
    exact List.forall_mem_cons.2 ⟨isRooted_ofParts hslashTrim hfirstTrim, h.rooted⟩
  case prefixes =>
    rw [hsteps]
    refine List.forall_mem_cons.2 ⟨?_, fun q hq => ?_⟩
    · rw [hnearest]
      exact List.prefix_append _ _
    · exact (h.prefixes q hq).trans (List.prefix_append _ _)
  case complete =>
    intro front hfront hne
    rw [hsteps] at hfront hne
    have hbefore := (List.prefix_concat_iff.1 hfront).resolve_left hne
    by_cases hall : front = body.filter fun piece => !isTrivial piece
    · exact ⟨_, List.mem_cons_self, hnearest.trans hall.symm⟩
    · obtain ⟨q, hq, hqsteps⟩ := h.complete front hbefore hall
      exact ⟨q, List.mem_cons_of_mem _ hq, hqsteps⟩
  case decreasing =>
    refine List.pairwise_cons.2 ⟨fun q hq => ?_, h.decreasing⟩
    rw [hnearest]
    exact (h.prefixes q hq).length_le
  case short =>
    refine List.forall_mem_cons.2 ⟨?_, h.longer piece⟩
    exact length_ofParts_le anchor (hinitial.trans (List.prefix_append _ _))

/-- What is computed as the directories above is that. -/
theorem above_reverse (hslash : ∀ piece ∈ body, slash ∉ piece)
    (hfirst : anchor = .none → ∀ piece, body.head? = some piece → isTrivial piece = false) :
    Above anchor body (above anchor body.reverse) := by
  induction body using List.reverseRecOn with
  | nil =>
      by_cases hcurrent : anchor = .current
      · subst hcurrent
        refine ⟨?_, ?_, ?_, ?_, ?_⟩ <;> simp [above, ofParts, isRooted, steps, pieces, isTrivial]
      · refine ⟨?_, ?_, ?_, ?_, ?_⟩ <;> simp [above, hcurrent]
  | append_singleton body piece ih =>
      have hslash' : ∀ other ∈ body, slash ∉ other :=
        fun other hother => hslash other (List.mem_append_left _ hother)
      have hfirst' : anchor = .none → ∀ other, body.head? = some other →
          isTrivial other = false := by
        intro hanchor other hother
        refine hfirst hanchor other ?_
        rw [List.head?_append, hother, Option.some_or]
      have habove := ih hslash' hfirst'
      rw [List.reverse_append, List.reverse_singleton, List.singleton_append, above]
      by_cases htrivial : isTrivial piece = true
      · rw [if_pos htrivial]
        exact habove.skip htrivial
      · rw [if_neg htrivial]
        exact habove.step (by simpa using htrivial) hslash' hfirst'

/-- What is above a path, by its own parts. -/
theorem above_parts (p : Path) : Above p.parts.1 p.parts.2 (above p.parts.1 p.parts.2.reverse) :=
  above_reverse p.parts_sound.1 p.parts_sound.2

/-- The directories above a path start where the path does. -/
theorem isRooted_of_mem_ancestors {p q : Path} (h : q ∈ p.ancestors) :
    q.isRooted = p.isRooted := by
  have hrooted := p.above_parts.rooted
  obtain ⟨hslash, hfirst⟩ := p.parts_sound
  have hself := isRooted_ofParts hslash hfirst
  rw [ofParts_parts] at hself
  rcases List.mem_cons.1 h with rfl | h
  · rfl
  · rw [Bool.eq_iff_iff, hrooted q h, hself]

/-- The directories above a path have its first steps. -/
theorem steps_prefix_of_mem_ancestors {p q : Path} (h : q ∈ p.ancestors) : q.steps <+: p.steps := by
  rcases List.mem_cons.1 h with rfl | h
  · exact List.prefix_refl _
  · rw [steps_eq_filter_parts p]
    exact p.above_parts.prefixes q h

/-- All of its first steps lead to directories above a path. -/
theorem exists_ancestor_of_prefix {p : Path} {front : List FileName} (h : front <+: p.steps) :
    ∃ q ∈ p.ancestors, q.steps = front := by
  by_cases hall : front = p.steps
  · exact ⟨p, List.mem_cons_self, hall.symm⟩
  · rw [steps_eq_filter_parts p] at h hall
    obtain ⟨q, hq, hsteps⟩ := p.above_parts.complete front h hall
    exact ⟨q, List.mem_cons_of_mem _ hq, hsteps⟩

/-- The directories above a path come nearest first. -/
theorem pairwise_ancestors (p : Path) :
    p.ancestors.Pairwise fun q r => r.steps.length ≤ q.steps.length := by
  refine List.pairwise_cons.2 ⟨fun q hq => ?_, p.above_parts.decreasing⟩
  exact (steps_prefix_of_mem_ancestors (List.mem_cons_of_mem _ hq)).length_le

/-- The directories above a path are no longer than the path. -/
theorem length_le_of_mem_ancestors {p q : Path} (h : q ∈ p.ancestors) :
    q.bytes.length ≤ p.bytes.length := by
  have hshort := p.above_parts.short
  rw [ofParts_parts] at hshort
  rcases List.mem_cons.1 h with rfl | h
  · exact Nat.le_refl _
  · exact hshort q h

/-- The directory above a path is rooted exactly when the path is. -/
theorem isRooted_of_parent? {p q : Path} (h : p.parent? = some q) : q.isRooted = p.isRooted := by
  apply isRooted_of_mem_ancestors
  rw [parent?, ancestors, List.tail_cons] at h
  exact List.mem_cons_of_mem _ (List.mem_of_head? h)

/-- Above a path with a leading `.` there is at least the empty path. -/
theorem above_current_ne_nil (body : List FileName) : above .current body ≠ [] := by
  induction body with
  | nil => simp [above]
  | cons piece body ih =>
      rw [above]
      split
      · exact ih
      · simp

/-- A path without a directory above it is empty or names the root. -/
theorem empty_or_root_of_parent? {p : Path} (h : p.parent? = none) :
    p.bytes = [] ∨ p.isRooted = true ∧ p.steps = [] := by
  rw [parent?, ancestors, List.tail_cons, List.head?_eq_none_iff] at h
  have hsteps : p.steps = [] := by
    obtain ⟨q, hq, hsteps⟩ := exists_ancestor_of_prefix (List.nil_prefix (l := p.steps))
    rw [ancestors, h, List.mem_singleton] at hq
    rwa [hq] at hsteps
  obtain ⟨hslash, hfirst⟩ := p.parts_sound
  have hwhole := p.ofParts_parts
  cases hanchor : p.parts.1 with
  | root =>
      have hrooted := (isRooted_ofParts hslash hfirst).2 hanchor
      rw [hwhole] at hrooted
      exact .inr ⟨hrooted, hsteps⟩
  | current =>
      rw [hanchor] at h
      exact absurd h (above_current_ne_nil _)
  | none =>
      rw [steps_eq_filter_parts] at hsteps
      cases hbody : p.parts.2 with
      | nil =>
          rw [hanchor, hbody] at hwhole
          exact .inl (congrArg Path.bytes hwhole).symm
      | cons piece body =>
          have hpiece := hfirst hanchor piece (by rw [hbody]; rfl)
          rw [hbody, List.filter_cons_of_pos (by simp [hpiece])] at hsteps
          cases hsteps

end Path

end NativeBuild
