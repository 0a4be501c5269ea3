import NativeBuild.Proofs.Path.Steps

/-!
# Ways without links

Where no symbolic link is on the way, the steps of a path that never steps up lead along the tree:
what an entry is found as depends on the position of its directory and on the name alone, and not
on how the path to the directory is written.

Main definitions:

- `FileSystem.Plain`: a file system without symbolic links.
- `FileSystem.Short`: a file system with names as the system takes them.
- `FileSystem.Straight`: a way along names without symbolic links.

Main results:

- Theorem `Leads.goal_eq`: without links, names lead along the tree.
- Theorem `walk_concat_eq_ok`: a walk to a name, by the position of its directory.
- Theorem `locate_child_eq_ok`: the look-up of an entry, by the position of its directory.
-/

namespace NativeBuild

/-- Every byte of a path but the slashes is in one of its pieces. -/
theorem Path.exists_mem_pieces {bytes : List UInt8} {b : UInt8} (hb : b ∈ bytes)
    (hslash : b ≠ slash) : ∃ piece ∈ pieces bytes, b ∈ piece := by
  induction bytes with
  | nil => cases hb
  | cons first rest ih =>
      rw [pieces]
      by_cases hfirst : first = slash
      · rw [if_pos hfirst]
        rcases List.mem_cons.1 hb with rfl | hb
        · exact absurd hfirst hslash
        · obtain ⟨piece, hpiece, hmem⟩ := ih hb
          exact ⟨piece, List.mem_cons_of_mem _ hpiece, hmem⟩
      · rw [if_neg hfirst]
        cases hrest : pieces rest with
        | nil => exact absurd hrest (pieces_ne_nil rest)
        | cons piece others =>
            rw [hrest] at ih
            rcases List.mem_cons.1 hb with rfl | hb
            · exact ⟨_, List.mem_cons_self, List.mem_cons_self⟩
            · obtain ⟨other, hother, hmem⟩ := ih hb
              rcases List.mem_cons.1 hother with rfl | hother
              · exact ⟨_, List.mem_cons_self, List.mem_cons_of_mem _ hmem⟩
              · exact ⟨other, List.mem_cons_of_mem _ hother, hmem⟩

/-- There are no symbolic links in the tree. -/
def Node.Plain (node : Node) : Prop :=
  ∀ position target, node.at? position ≠ some (.link target)

/-- A file has no links below it. -/
theorem Node.plain_file (content : List UInt8) : (Node.file content).Plain := by
  intro position target h
  cases position <;> cases h

/-- A directory has no links below it if its entries have none. -/
theorem Node.plain_directory {entries : Entries} (hbelow : ∀ entry ∈ entries, entry.2.Plain) :
    (Node.directory entries).Plain := by
  intro position target h
  cases position with
  | nil => cases h
  | cons name rest =>
      obtain ⟨inner, hentry, hrest⟩ := Option.bind_eq_some_iff.1 h
      exact hbelow _ (Entries.mem_of_get? hentry) rest target hrest

/-- Names in the tree are as short as the system takes them, and have no zero byte. -/
def Node.Short (node : Node) : Prop :=
  ∀ position inner, node.at? position = some inner →
    ∀ name ∈ position, name.length ≤ FileSystem.maxName ∧ 0 ∉ name

/-- A file has no names below it. -/
theorem Node.short_file (content : List UInt8) : (Node.file content).Short := by
  intro position inner h
  cases position with
  | nil => simp
  | cons name rest => cases h

/-- A directory has short names below it if its entries have, and their names are short. -/
theorem Node.short_directory {entries : Entries}
    (hnames : ∀ entry ∈ entries, entry.1.length ≤ FileSystem.maxName ∧ 0 ∉ entry.1)
    (hbelow : ∀ entry ∈ entries, entry.2.Short) : (Node.directory entries).Short := by
  intro position inner h
  cases position with
  | nil => simp
  | cons name rest =>
      obtain ⟨node, hentry, hrest⟩ := Option.bind_eq_some_iff.1 h
      have hmem := Entries.mem_of_get? hentry
      exact List.forall_mem_cons.2 ⟨hnames _ hmem, hbelow _ hmem rest inner hrest⟩

namespace FileSystem

/-- There are no symbolic links. -/
def Plain (fs : FileSystem) : Prop :=
  (Node.directory fs.root).Plain

/-- Names are as short as the system takes them, and have no zero byte. -/
def Short (fs : FileSystem) : Prop :=
  (Node.directory fs.root).Short

/-- There is no symbolic link on the way from a position along some names. -/
def Straight (fs : FileSystem) (position names : List FileName) : Prop :=
  ∀ front, front <+: names → ∀ target, fs.at? (position ++ front) ≠ some (.link target)

variable {fs : FileSystem} {position goal names pieces : List FileName} {name : FileName}
  {node : Node} {expand : List FileName → List FileName → Except Fault Location}

/-! ## Names along a tree -/

/-- A path that is found leads to it by its steps. -/
theorem leads_of_steps {p : Path} (h : fs.locate .target p = .ok (.present goal node)) :
    fs.Leads (fs.start p) p.steps goal node := by
  rw [Path.steps_eq_filterMap]
  exact leads_of_components h

/-- Without links, names lead along the tree. -/
theorem Leads.goal_eq (hplain : fs.Plain) (h : fs.Leads position names goal node)
    (hnames : ∀ name ∈ names, Path.isTrivial name = false) (hup : [dot, dot] ∉ names) :
    goal = position ++ names := by
  induction h with
  | here hat => rw [List.append_nil]
  | skip hat htrivial h ih => cases htrivial.symm.trans (hnames _ List.mem_cons_self)
  | up hat h ih => exact absurd List.mem_cons_self hup
  | link hat _ _ hentry h ih => exact absurd (at?_entry hat hentry) (hplain _ _)
  | enter hat _ _ hentry hlink h ih =>
      have hrest := ih (fun name hname => hnames name (List.mem_cons_of_mem _ hname))
        fun hmem => hup (List.mem_cons_of_mem _ hmem)
      rw [hrest, List.append_assoc, List.singleton_append]

/-! ## Walks along names -/

/-- The way from the first name on goes through no link either. -/
theorem Straight.tail (h : fs.Straight position (name :: names)) :
    fs.Straight (position ++ [name]) names := by
  intro front hfront target
  rw [List.append_assoc]
  exact h (name :: front) (List.cons_prefix_cons.2 ⟨rfl, hfront⟩) target

/-- What lies on the way to a directory is a directory. -/
theorem exists_directory_of_append {back : List FileName} {entries : Entries}
    (h : fs.at? (position ++ back) = some (.directory entries)) :
    ∃ others, fs.at? position = some (.directory others) := by
  rw [at?_append] at h
  obtain ⟨node, hnode, hback⟩ := Option.bind_eq_some_iff.1 h
  cases node with
  | directory others => exact ⟨others, hnode⟩
  | file content => cases back <;> cases hback
  | link target => cases back <;> cases hback

/-- Pieces lead on from directories only. -/
theorem exists_directory_of_walk {purpose : Purpose} {piece : FileName} {location : Location}
    (h : fs.walk purpose expand position (piece :: names) = .ok location) :
    ∃ entries, fs.at? position = some (.directory entries) := by
  cases hat : fs.at? position with
  | none => simp [walk, hat] at h
  | some node =>
      cases node with
      | directory entries => exact ⟨entries, rfl⟩
      | file content => simp [walk, hat] at h
      | link target => simp [walk, hat] at h

/-- A name that is no link is walked through when there is something under it. -/
theorem walk_name_eq_ok {entries : Entries} {location : Location} (hshort : fs.Short)
    (hat : fs.at? position = some (.directory entries)) (htrivial : Path.isTrivial name = false)
    (hup : name ≠ [dot, dot]) (hlink : ∀ target, fs.at? (position ++ [name]) ≠ some (.link target))
    (hnames : names ≠ []) :
    fs.walk .target expand position (name :: names) = .ok location ↔
      (∃ node, fs.at? (position ++ [name]) = some node) ∧
        fs.walk .target expand (position ++ [name]) names = .ok location := by
  have hentry : fs.at? (position ++ [name]) = Entries.get? name entries := by
    rw [at?_append, hat]
    cases h : Entries.get? name entries <;> simp [Node.at?, h]
  rw [walk, hat]
  simp only [htrivial, Bool.false_eq_true, if_false, if_neg hup, reduceCtorEq, false_and]
  by_cases hlong : maxName < name.length
  · rw [if_pos hlong]
    simp only [reduceCtorEq, false_iff]
    rintro ⟨⟨node, hnode⟩, -⟩
    exact absurd (hshort _ _ hnode name (by simp)).1 (by omega)
  · rw [if_neg hlong]
    cases hget : Entries.get? name entries with
    | none => simp [hentry, hget, hnames]
    | some node =>
        rw [hget] at hentry
        cases node with
        | link target => exact absurd hentry (hlink target)
        | file content => simp [hentry]
        | directory others => simp [hentry]

/-- A walk to a name leads through directories, where no links are on the way. -/
theorem walk_concat_eq_ok (hshort : fs.Short) (hup : [dot, dot] ∉ pieces)
    (hstraight : fs.Straight position (pieces.filter fun piece => !Path.isTrivial piece)) :
    fs.walk .target expand position (pieces ++ [name]) = .ok (.present goal node) ↔
      (∃ entries, fs.at? (position ++ pieces.filter fun piece => !Path.isTrivial piece) =
          some (.directory entries)) ∧
        fs.walk .target expand (position ++ pieces.filter fun piece => !Path.isTrivial piece)
          [name] = .ok (.present goal node) := by
  induction pieces generalizing position with
  | nil =>
      rw [List.filter_nil, List.append_nil, List.nil_append]
      exact ⟨fun h => ⟨exists_directory_of_walk h, h⟩, And.right⟩
  | cons piece rest ih =>
      obtain ⟨hpiece, hrest⟩ := not_or.1 (mt List.mem_cons.2 hup)
      by_cases hdirectory : ∃ entries, fs.at? position = some (.directory entries)
      · obtain ⟨entries, hat⟩ := hdirectory
        by_cases htrivial : Path.isTrivial piece = true
        · rw [List.filter_cons_of_neg (by simp [htrivial])] at hstraight ⊢
          rw [List.cons_append, walk, hat, ← ih hrest hstraight]
          simp only [htrivial, if_true]
        · rw [List.filter_cons_of_pos (by simp [htrivial])] at hstraight ⊢
          have hlink := hstraight [piece] (List.cons_prefix_cons.2 ⟨rfl, List.nil_prefix⟩)
          rw [List.cons_append, walk_name_eq_ok hshort hat (by simpa using htrivial)
            (Ne.symm hpiece) hlink (by simp), ih hrest hstraight.tail, List.append_assoc,
            List.singleton_append]
          refine and_iff_right_of_imp ?_
          rintro ⟨⟨others, hothers⟩, -⟩
          rw [← List.singleton_append, ← List.append_assoc] at hothers
          obtain ⟨inner, hinner⟩ := exists_directory_of_append hothers
          exact ⟨_, hinner⟩
      · refine iff_of_false (fun h => hdirectory (exists_directory_of_walk h)) ?_
        rintro ⟨⟨entries, hentries⟩, -⟩
        exact hdirectory (exists_directory_of_append hentries)

/-! ## Entries of directories -/

/-- What a path is resolved to is what a walk of its pieces ends with. -/
theorem exists_walk_eq_resolve (fs : FileSystem) (purpose : Purpose) (links : Nat) :
    ∃ expand, ∀ position pieces,
      fs.resolve purpose links position pieces = fs.walk purpose expand position pieces := by
  cases links with
  | zero => exact ⟨_, fun _ _ => rfl⟩
  | succ links => exact ⟨_, fun _ _ => rfl⟩

/-- The pieces of an entry are its name and before that, up to what names nothing, the steps of
its directory. -/
theorem exists_pieces_child (p : Path) (hname : name.Proper) :
    ∃ front, Path.pieces (p.child name).bytes = front ++ [name] ∧
      (front.filter fun piece => !Path.isTrivial piece) = p.steps := by
  obtain ⟨front, hfront⟩ := p.pieces_child hname.noSlash
  have hnames : ∀ other ∈ [name], other.Proper := by simpa using hname
  have hsteps : (p.child name).steps = p.steps ++ [name] := p.steps_below hnames
  rw [Path.steps, hfront, List.filter_append,
    List.filter_cons_of_pos (by simp [hname.names])] at hsteps
  exact ⟨front, hfront, (List.append_inj' hsteps rfl).1⟩

/-- Where no link is on the way to a directory, what its entry is found as depends on the position
of the directory and on the name. -/
theorem locate_child_eq_ok {p : Path} (hshort : fs.Short) (hname : name.Proper)
    (hzero : 0 ∉ name) (hup : [dot, dot] ∉ p.steps) (hstraight : fs.Straight (fs.start p) p.steps)
    (hlength : (p.child name).bytes.length ≤ maxPath) :
    fs.locate .target (p.child name) = .ok (.present goal node) ↔
      (∃ entries, fs.at? (fs.start p ++ p.steps) = some (.directory entries)) ∧
        fs.resolve .target maxLinks (fs.start p ++ p.steps) [name] =
          .ok (.present goal node) := by
  obtain ⟨front, hpieces, hfront⟩ := exists_pieces_child p hname
  have hnonempty : (p.child name).bytes ≠ [] := (p.unslashed_child hname).1
  have hstart : (if (p.child name).isRooted then [] else fs.cwd) = fs.start p := by
    rw [Path.child, p.isRooted_join (Path.isRooted_name hname.noSlash), start]
  obtain ⟨expand, hexpand⟩ := fs.exists_walk_eq_resolve .target maxLinks
  have hup' : [dot, dot] ∉ front := by
    intro hmem
    rw [← hfront] at hup
    exact hup (List.mem_filter.2 ⟨hmem, by decide⟩)
  by_cases hnul : 0 ∈ (p.child name).bytes
  · -- A zero byte would be in a name on the way.
    rw [locate, if_neg hnonempty, if_pos hnul]
    simp only [reduceCtorEq, false_iff]
    rintro ⟨⟨entries, hat⟩, -⟩
    obtain ⟨piece, hpiece, hmem⟩ := Path.exists_mem_pieces hnul (by decide)
    rw [hpieces, List.mem_append, List.mem_singleton] at hpiece
    rcases hpiece with hpiece | rfl
    · have htrivial : Path.isTrivial piece = false := by
        rw [Path.isTrivial, Bool.or_eq_false_iff, beq_eq_false_iff_ne, beq_eq_false_iff_ne]
        exact ⟨fun h => by simp [h] at hmem, fun h => by simp [h, dot] at hmem⟩
      have hstep : piece ∈ p.steps := by
        rw [← hfront]
        exact List.mem_filter.2 ⟨hpiece, by simp [htrivial]⟩
      exact (hshort _ _ hat piece (List.mem_append_right _ hstep)).2 hmem
    · exact hzero hmem
  · rw [locate, if_neg hnonempty, if_neg hnul, if_neg (by omega), hstart,
      if_neg (by simp), hpieces, hexpand, hexpand, ← hfront]
    exact walk_concat_eq_ok hshort hup' (hfront ▸ hstraight)

end FileSystem

end NativeBuild
