import NativeBuild.Proofs.FileSystem.Listing

/-!
# Paths below a directory

A path below a directory along names is written as the directory, a slash, and the names with
slashes between them.  So stripping the directory leaves the names as they are, and joining them
to another directory gives the path at the same place below that one.

Main definitions:

- `Path.Unslashed`: a path that is written with no slash at its end.
- `Path.StrictlyBelow`: a path that goes on from a directory by names.

Main results:

- Theorem `stripPrefix?_below`: what is left of a path below a directory.
- Theorem `join_joinPieces`: joining what is left to a directory.
- Theorem `child_withSuffix`: a suffix lengthens the last name.
- Theorem `extension?_below`: the extension is that of the last name.
- Theorem `same_below_iff`: paths at different places below a directory are different.
- Theorem `join_strictlyBelow_iff`: when a text that is joined to a directory stays below it.
-/

namespace NativeBuild

namespace Path

/-! ## Text below a directory -/

/-- The path is written with no slash at its end, and is not empty. -/
def Unslashed (p : Path) : Prop :=
  p.bytes ≠ [] ∧ p.bytes.getLast? ≠ some slash

/-- A path with no slash at its end has none to lose. -/
theorem Unslashed.withoutLastSlashes {p : Path} (h : p.Unslashed) : p.withoutLastSlashes = p := by
  obtain ⟨hnonempty, hlast⟩ := h
  obtain ⟨bytes⟩ := p
  obtain ⟨front, b, rfl⟩ := (List.eq_nil_or_concat bytes).resolve_left hnonempty
  have hb : b ≠ slash := by simpa using hlast
  simp [Path.withoutLastSlashes, hb]

/-- What a path starts with decides whether it is rooted. -/
theorem isRooted_append {front : List UInt8} (hfront : front ≠ []) (back : List UInt8) :
    (⟨front ++ back⟩ : Path).isRooted = (⟨front⟩ : Path).isRooted := by
  cases front with
  | nil => exact absurd rfl hfront
  | cons b rest => rfl

/-- What follows a text that is joined to a directory stays behind it. -/
theorem join_append (p : Path) {front : List UInt8} (hfront : front ≠ []) (back : List UInt8) :
    p.join ⟨front ++ back⟩ = ⟨(p.join ⟨front⟩).bytes ++ back⟩ := by
  have hhead := isRooted_append hfront back
  cases hrooted : (⟨front⟩ : Path).isRooted with
  | true => simp [join, hhead, hrooted]
  | false =>
      simp only [join, hhead, hrooted, Bool.false_eq_true, if_false]
      split <;> simp

end Path

variable {name : FileName} {names : List FileName}

/-- A proper name is not empty. -/
theorem FileName.Proper.ne_nil (h : name.Proper) : name ≠ [] := by
  rintro rfl
  cases h.names

/-- What has a suffix that names something is a proper name, if no slash is in it. -/
theorem FileName.proper_append {name suffix : FileName} (hname : slash ∉ name)
    (hsuffix : slash ∉ suffix) (hnames : ∃ b ∈ suffix, b ≠ dot) : (name ++ suffix).Proper := by
  obtain ⟨b, hb, hdot⟩ := hnames
  have hother : ∀ other : List UInt8, b ∉ other → name ++ suffix ≠ other := by
    rintro other hnone rfl
    exact hnone (List.mem_append_right _ hb)
  refine ⟨?_, hother _ (by simp [hdot]), by simp [hname, hsuffix]⟩
  rw [Path.isTrivial, Bool.or_eq_false_iff, beq_eq_false_iff_ne, beq_eq_false_iff_ne]
  exact ⟨hother [] (by simp), hother [dot] (by simp [hdot])⟩

namespace Path

/-- A suffix lengthens the last name. -/
theorem child_withSuffix (p : Path) (hname : name.Proper) (suffix : String) :
    (p.child name).withSuffix suffix = p.child (name ++ Text.utf8 suffix) :=
  (p.join_append hname.ne_nil _).symm

/-- An entry is written with its name at the end. -/
theorem unslashed_child (p : Path) (hname : name.Proper) : (p.child name).Unslashed := by
  obtain ⟨front, hfront⟩ : ∃ front, (p.child name).bytes = front ++ name := by
    rw [child, join, isRooted_name hname.noSlash, if_neg (by simp)]
    split
    · exact ⟨p.bytes, rfl⟩
    · exact ⟨p.bytes ++ [slash], by simp⟩
  have hlast := List.getLast?_eq_some_getLast hname.ne_nil
  have hne : name.getLast hname.ne_nil ≠ slash :=
    ne_of_mem_of_not_mem (List.getLast_mem _) hname.noSlash
  rw [Unslashed, hfront, List.getLast?_append, hlast]
  exact ⟨by simp [hname.ne_nil], by simpa using hne⟩

/-- Names with slashes between them are not rooted. -/
theorem isRooted_joinPieces (hnames : ∀ name ∈ names, name.Proper) :
    (⟨joinPieces names⟩ : Path).isRooted = false := by
  cases names with
  | nil => rfl
  | cons first rest =>
      have hfirst := hnames first List.mem_cons_self
      cases rest with
      | nil => exact isRooted_name hfirst.noSlash
      | cons next others =>
          rw [joinPieces, isRooted_append hfirst.ne_nil]
          exact isRooted_name hfirst.noSlash

/-- Joining names to a directory, with slashes between them, leads along these names. -/
theorem join_joinPieces (p : Path) (hnames : ∀ name ∈ names, name.Proper) (hne : names ≠ []) :
    p.join ⟨joinPieces names⟩ = p.below names := by
  induction names generalizing p with
  | nil => exact absurd rfl hne
  | cons first rest ih =>
      obtain ⟨hfirst, hrest⟩ := List.forall_mem_cons.1 hnames
      cases rest with
      | nil => rfl
      | cons next others =>
          have hbelow : p.below (first :: next :: others) =
              (p.child first).join ⟨joinPieces (next :: others)⟩ :=
            (ih (p.child first) hrest (by simp)).symm
          obtain ⟨hnonempty, hlast⟩ := p.unslashed_child hfirst
          rw [hbelow, joinPieces, p.join_append hfirst.ne_nil, join.eq_def (p.child first),
            isRooted_joinPieces hrest, if_neg (by simp), if_neg (by simp [hnonempty, hlast])]
          rfl

/-- Below a directory that is written with no slash at its end, the names are further pieces. -/
theorem pieces_below {p : Path} (hp : p.Unslashed) (hnames : ∀ name ∈ names, name.Proper) :
    pieces (p.below names).bytes = pieces p.bytes ++ names := by
  induction names generalizing p with
  | nil => simp [below]
  | cons first rest ih =>
      obtain ⟨hfirst, hrest⟩ := List.forall_mem_cons.1 hnames
      have hchild : pieces (p.child first).bytes = pieces p.bytes ++ [first] := by
        obtain ⟨hnonempty, hlast⟩ := hp
        rw [child, join, isRooted_name hfirst.noSlash, if_neg (by simp),
          if_neg (by simp [hnonempty, hlast]), pieces_append_slash,
          pieces_of_not_mem hfirst.noSlash]
      have hbelow : pieces ((p.child first).below rest).bytes =
          pieces (p.child first).bytes ++ rest := ih (p.unslashed_child hfirst) hrest
      rw [hchild, List.append_assoc] at hbelow
      exact hbelow

/-! ## Stripping a directory -/

/-- Further pieces at the end of a path are further parts of it. -/
theorem parts_append {p q : Path} {more : List FileName}
    (h : pieces q.bytes = pieces p.bytes ++ more) (hp : p.bytes ≠ []) :
    q.parts = (p.parts.1, p.parts.2 ++ more) := by
  unfold parts
  cases hpieces : pieces p.bytes with
  | nil => exact absurd hpieces (pieces_ne_nil p.bytes)
  | cons piece rest =>
      rw [h, hpieces, List.cons_append]
      by_cases hempty : piece = []
      · have hrest : rest ≠ [] := by
          rintro rfl
          exact hp (pieces_eq_singleton_nil (hempty ▸ hpieces))
        simp [hempty, hrest]
      · by_cases hdot : piece = [dot]
        · simp [hdot]
        · simp [hempty, hdot]

/-- Only the empty path has no components. -/
theorem components_ne_nil {p : Path} (hp : p.bytes ≠ []) : p.components ≠ [] := by
  unfold components parts
  cases hpieces : pieces p.bytes with
  | nil => exact absurd hpieces (pieces_ne_nil p.bytes)
  | cons piece rest =>
      by_cases hempty : piece = []
      · have hrest : rest ≠ [] := by
          rintro rfl
          exact hp (pieces_eq_singleton_nil (hempty ▸ hpieces))
        simp [hempty, hrest, Anchor.components]
      · by_cases hdot : piece = [dot]
        · simp [hdot, Anchor.components]
        · by_cases hup : piece = [dot, dot] <;>
            simp [hempty, hdot, hup, component?, isTrivial]

/-- Dropping as many components as some pieces stand for leaves those after them. -/
theorem dropComponents_append (body more : List FileName) :
    dropComponents (body.filterMap component?).length (body ++ more) =
      more.dropWhile isTrivial := by
  induction body with
  | nil => rw [List.filterMap_nil, List.length_nil, List.nil_append, dropComponents]
  | cons piece rest ih =>
      by_cases htrivial : isTrivial piece = true
      · have hnone : component? piece = none := by simp [component?, htrivial]
        rw [List.filterMap_cons_none hnone, List.cons_append, ← ih]
        cases (rest.filterMap component?).length with
        | zero => simp [dropComponents, htrivial]
        | succ n => simp [dropComponents, htrivial]
      · obtain ⟨component, hsome⟩ : ∃ component, component? piece = some component := by
          by_cases hup : piece = [dot, dot]
          · exact ⟨.parent, by simp [component?, hup, isTrivial]⟩
          · exact ⟨.name piece, by simp [component?, htrivial, hup]⟩
        rw [List.filterMap_cons_some hsome, List.length_cons, List.cons_append, dropComponents,
          if_neg htrivial, ih]

/-- Names have nothing trivial at their ends. -/
theorem trimEnd_dropWhile_names (hnames : ∀ name ∈ names, name.Proper) :
    trimEnd (names.dropWhile isTrivial) = names := by
  have hkeep : ∀ list : List FileName, (∀ name ∈ list, isTrivial name = false) →
      list.dropWhile isTrivial = list := by
    intro list hlist
    cases list with
    | nil => rfl
    | cons first rest => simp [hlist first List.mem_cons_self]
  have htrivial : ∀ name ∈ names, isTrivial name = false := fun name hname =>
    (hnames name hname).names
  rw [hkeep names htrivial, trimEnd, hkeep _ (by simpa using htrivial), List.reverse_reverse]

/-- What is left of a path below a directory are the names, with slashes between them. -/
theorem stripPrefix?_below {p : Path} (hp : p.Unslashed) (hnames : ∀ name ∈ names, name.Proper) :
    (p.below names).stripPrefix? p = some ⟨joinPieces names⟩ := by
  have hprefix : p.components.isPrefixOf (p.below names).components = true := by
    rw [components_below p hnames, List.isPrefixOf_iff_prefix]
    exact List.prefix_append _ _
  have hparts := parts_append (pieces_below hp hnames) hp.1
  have hlength : p.components.length - p.parts.1.components.length =
      (p.parts.2.filterMap component?).length := by
    rw [components, List.length_append, Nat.add_sub_cancel_left]
  rw [stripPrefix?, if_neg (components_ne_nil hp.1), if_pos hprefix, hparts]
  dsimp only
  rw [hlength, dropComponents_append, trimEnd_dropWhile_names hnames]

/-! ## Names below a directory -/

/-- The extension of a path below a directory is that of its last name. -/
theorem extension?_below (p : Path) (hnames : ∀ other ∈ names ++ [name], FileName.Proper other) :
    (p.below (names ++ [name])).extension? = extensionOf? name := by
  rw [extension?, fileName?, components_below p hnames]
  simp

/-- Paths below a directory are the same when they lead along the same names. -/
theorem same_below_iff (p : Path) {others : List FileName}
    (hnames : ∀ name ∈ names, name.Proper) (hothers : ∀ name ∈ others, name.Proper) :
    (p.below names).same (p.below others) = true ↔ names = others := by
  rw [same_iff, components_below p hnames, components_below p hothers, List.append_cancel_left_eq]
  exact List.map_inj_right fun _ _ h => Component.name.inj h

/-! ## Paths that go on by names -/

/-- The path goes on from a directory by names, and by one at least. -/
def StrictlyBelow (path directory : Path) : Prop :=
  ∃ names ≠ [], path.components = directory.components ++ names.map .name

/-- A path along names is strictly below its directory. -/
theorem strictlyBelow_below (directory : Path) {names : List FileName}
    (hnames : ∀ name ∈ names, name.Proper) (hne : names ≠ []) :
    (directory.below names).StrictlyBelow directory :=
  ⟨names, hne, directory.components_below hnames⟩

/-- Pieces stand for names when none of them is a step up. -/
theorem exists_names_iff {body : List FileName} :
    (∃ names : List FileName, body.filterMap component? = names.map .name) ↔
      [dot, dot] ∉ body := by
  constructor
  · rintro ⟨names, hnames⟩ hup
    have hparent : Component.parent ∈ names.map Component.name := by
      rw [← hnames]
      exact List.mem_filterMap.2 ⟨[dot, dot], hup, by decide⟩
    simp at hparent
  · intro hup
    induction body with
    | nil => exact ⟨[], rfl⟩
    | cons piece rest ih =>
        obtain ⟨hpiece, hrest⟩ := not_or.1 (mt List.mem_cons.2 hup)
        obtain ⟨names, hnames⟩ := ih hrest
        by_cases htrivial : isTrivial piece = true
        · refine ⟨names, ?_⟩
          rw [List.filterMap_cons_none (by rw [component?, if_pos htrivial]), hnames]
        · refine ⟨piece :: names, ?_⟩
          have hname : component? piece = some (.name piece) := by
            rw [component?, if_neg htrivial, if_neg (Ne.symm hpiece)]
          rw [List.filterMap_cons_some hname, hnames, List.map_cons]

/-- A suffix without slashes does not root a path. -/
theorem isRooted_append_suffix {bytes suffix : List UInt8}
    (hrooted : (⟨bytes⟩ : Path).isRooted = false) (hslash : slash ∉ suffix) :
    (⟨bytes ++ suffix⟩ : Path).isRooted = false := by
  cases bytes with
  | nil => exact isRooted_name (by simpa using hslash)
  | cons b rest => exact hrooted

/-- A text that is joined to a directory, and is not rooted, has its pieces for further
components. -/
theorem components_join {p : Path} (hp : p.bytes ≠ []) {bytes : List UInt8}
    (hrooted : (⟨bytes⟩ : Path).isRooted = false) :
    (p.join ⟨bytes⟩).components = p.components ++ (pieces bytes).filterMap component? := by
  have hafter : ∀ front : List UInt8, front ≠ [] →
      (⟨front ++ slash :: bytes⟩ : Path).components =
        (⟨front⟩ : Path).components ++ (pieces bytes).filterMap component? := by
    intro front hfront
    have hparts := parts_append (p := ⟨front⟩) (q := ⟨front ++ slash :: bytes⟩)
      (pieces_append_slash front bytes) hfront
    rw [components, components, hparts, List.filterMap_append, List.append_assoc]
  rw [join, hrooted, if_neg (by simp)]
  by_cases hlast : p.bytes.getLast? = some slash
  · obtain ⟨front, hfront⟩ := List.getLast?_eq_some_iff.1 hlast
    obtain rfl : p = ⟨front ++ [slash]⟩ := by rw [← hfront]
    rw [if_pos (by simp), List.append_assoc, List.singleton_append]
    by_cases hempty : front = []
    · -- The slash stands for the root.
      have hroot : pieces (slash :: bytes) = [] :: pieces bytes := by simp [pieces]
      have hslash : pieces [slash] = [] :: [[]] := rfl
      subst hempty
      rw [List.nil_append, List.nil_append, components_of_pieces hroot,
        components_of_pieces hslash]
      simp [pieces_ne_nil]
    · rw [hafter front hempty, components_append_slash hempty]
  · rw [if_neg (by simp [hp, hlast])]
    exact hafter p.bytes hp

/-- A text with a suffix stays below the directory that it is joined to, if it is not rooted and
steps up nowhere before its last slash, and only then. -/
theorem join_strictlyBelow_iff {p : Path} (hp : p.Unslashed) {bytes suffix : List UInt8}
    (hrooted : (⟨bytes⟩ : Path).isRooted = false) (hslash : slash ∉ suffix)
    (hnames : ∃ b ∈ suffix, b ≠ dot) :
    (p.join ⟨bytes ++ suffix⟩).StrictlyBelow p ↔ [dot, dot] ∉ (pieces bytes).dropLast := by
  obtain ⟨front, last, hbytes, hpieces⟩ := pieces_append_of_not_mem bytes hslash
  have hmem : last ∈ pieces bytes := by
    rw [hbytes]
    simp
  have hlast : FileName.Proper (last ++ suffix) :=
    FileName.proper_append (slash_not_mem_of_mem_pieces hmem) hslash hnames
  have hcomponents := components_join hp.1 (isRooted_append_suffix hrooted hslash)
  rw [hpieces] at hcomponents
  have hup : [dot, dot] ∉ (pieces bytes).dropLast ↔ [dot, dot] ∉ front ++ [last ++ suffix] := by
    have hne : [dot, dot] ≠ last ++ suffix := Ne.symm hlast.notUp
    simp [hbytes, hne]
  rw [hup, ← exists_names_iff, StrictlyBelow, hcomponents]
  constructor
  · rintro ⟨names, -, h⟩
    exact ⟨names, List.append_cancel_left h⟩
  · rintro ⟨names, h⟩
    refine ⟨names, ?_, by rw [h]⟩
    rintro rfl
    have hname : component? (last ++ suffix) = some (.name (last ++ suffix)) := by
      rw [component?, hlast.names, if_neg (by simp), if_neg hlast.notUp]
    simp [hname] at h

end Path

end NativeBuild
