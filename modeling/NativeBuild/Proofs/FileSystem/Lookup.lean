import NativeBuild.FileSystem.Operations
import NativeBuild.Proofs.Path.Parent

/-!
# What paths lead to

Looking up the node behind a path follows its pieces and the links on the way.  Said without
the bound on the number of links, a lookup is a derivation, and it determines the node.  What
names nothing in the path may be left out, so paths with the same components lead to the same
node; and below a directory, names lead along the tree.

Main definitions:

- `FileSystem.WalkStep`: what a walk does at a piece.
- `FileSystem.Leads`: pieces lead from a position to a node.
- `FileName.Proper`: a name that a directory can have for an entry.

Main results:

- Theorem `leads_of_locate`: a path that is found leads to what it is found at.
- Theorem `Leads.unique`: pieces lead to one node.
- Theorem `node_eq_of_same`: paths with the same components lead to the same node.
- Theorem `node_eq_of_below`: what a path below a directory leads to.
-/

namespace NativeBuild

/-! ## Positions in a tree -/

/-- A position below a position. -/
theorem Node.at?_append (front back : List FileName) (node : Node) :
    node.at? (front ++ back) = (node.at? front).bind fun inner => inner.at? back := by
  induction front generalizing node with
  | nil => rfl
  | cons name rest ih =>
      cases node with
      | file content => rfl
      | link target => rfl
      | directory entries =>
          simp only [List.cons_append, Node.at?, Option.bind_assoc]
          cases Entries.get? name entries with
          | none => rfl
          | some inner => exact ih inner

namespace FileSystem

/-- What is at a position below another one is looked up from there. -/
theorem at?_append (fs : FileSystem) (front back : List FileName) :
    fs.at? (front ++ back) = (fs.at? front).bind fun node => node.at? back :=
  Node.at?_append front back _

/-- The entry of a directory stands below the directory. -/
theorem at?_entry {fs : FileSystem} {position : List FileName} {name : FileName} {entries : Entries}
    {node : Node} (hat : fs.at? position = some (.directory entries))
    (hentry : Entries.get? name entries = some node) : fs.at? (position ++ [name]) = some node := by
  rw [at?_append, hat]
  simp [Node.at?, hentry]

/-! ## One step of a walk -/

/-- What a walk does at a piece: how it goes on, or what it ends with. -/
inductive WalkStep (fs : FileSystem) (purpose : Purpose)
    (expand : List FileName → List FileName → Except Fault Location) (position : List FileName) :
    FileName → List FileName → Except Fault Location → Prop
  | skip {piece : FileName} {rest : List FileName} {entries : Entries}
      (hat : fs.at? position = some (.directory entries)) (htrivial : Path.isTrivial piece = true) :
      WalkStep fs purpose expand position piece rest (fs.walk purpose expand position rest)
  | up {rest : List FileName} {entries : Entries}
      (hat : fs.at? position = some (.directory entries)) :
      WalkStep fs purpose expand position [dot, dot] rest
        (fs.walk purpose expand position.dropLast rest)
  /-- The last name is a link that is not followed. -/
  | stay {piece : FileName} {rest : List FileName} {entries : Entries} {target : Path}
      (hat : fs.at? position = some (.directory entries)) (htrivial : Path.isTrivial piece = false)
      (hup : piece ≠ [dot, dot]) (hentry : Entries.get? piece entries = some (.link target))
      (hrest : rest = []) (hfollows : purpose.follows = false) :
      WalkStep fs purpose expand position piece rest
        (.ok (.present (position ++ [piece]) (.link target)))
  | link {piece : FileName} {rest : List FileName} {entries : Entries} {target : Path}
      (hat : fs.at? position = some (.directory entries)) (htrivial : Path.isTrivial piece = false)
      (hup : piece ≠ [dot, dot]) (hentry : Entries.get? piece entries = some (.link target))
      (hfollowed : rest = [] → purpose.follows = true) :
      WalkStep fs purpose expand position piece rest
        (expand (if target.isRooted then [] else position) (Path.pieces target.bytes ++ rest))
  | enter {piece : FileName} {rest : List FileName} {entries : Entries} {inner : Node}
      (hat : fs.at? position = some (.directory entries)) (htrivial : Path.isTrivial piece = false)
      (hup : piece ≠ [dot, dot]) (hentry : Entries.get? piece entries = some inner)
      (hlink : ∀ target, inner ≠ .link target) :
      WalkStep fs purpose expand position piece rest
        (fs.walk purpose expand (position ++ [piece]) rest)
  /-- The last name is free. -/
  | free {piece : FileName} {entries : Entries}
      (hat : fs.at? position = some (.directory entries)) (htrivial : Path.isTrivial piece = false)
      (hup : piece ≠ [dot, dot]) (hentry : Entries.get? piece entries = none) :
      WalkStep fs purpose expand position piece [] (.ok (.absent position piece))
  /-- Another name is not there. -/
  | lost {piece : FileName} {rest : List FileName} {entries : Entries}
      (hat : fs.at? position = some (.directory entries)) (htrivial : Path.isTrivial piece = false)
      (hup : piece ≠ [dot, dot]) (hentry : Entries.get? piece entries = none) :
      WalkStep fs purpose expand position piece rest (.error .notFound)
  | fault {piece : FileName} {rest : List FileName} {fault : Fault} (hfault : fault ≠ .notFound) :
      WalkStep fs purpose expand position piece rest (.error fault)
  | nowhere {piece : FileName} {rest : List FileName} (hat : fs.at? position = none) :
      WalkStep fs purpose expand position piece rest (.error .notFound)

/-- A walk of some pieces makes a step at the first of them. -/
theorem walkStep (fs : FileSystem) (purpose : Purpose)
    (expand : List FileName → List FileName → Except Fault Location) (position : List FileName)
    (piece : FileName) (rest : List FileName) :
    fs.WalkStep purpose expand position piece rest
      (fs.walk purpose expand position (piece :: rest)) := by
  rw [walk]
  split
  · next entries hat =>
      by_cases htrivial : Path.isTrivial piece = true
      · rw [if_pos htrivial]
        exact .skip hat htrivial
      · rw [if_neg htrivial]
        rw [Bool.not_eq_true] at htrivial
        by_cases hup : piece = [dot, dot]
        · rw [if_pos hup]
          subst hup
          exact .up hat
        · rw [if_neg hup]
          split
          · exact .fault (by simp)
          · split
            · exact .fault (by simp)
            · split
              · next hentry =>
                  split
                  · next hrest =>
                      subst hrest
                      exact .free hat htrivial hup hentry
                  · exact .lost hat htrivial hup hentry
              · next target hentry =>
                  split
                  · next hend => exact .stay hat htrivial hup hentry hend.1 hend.2
                  · next hend =>
                      refine .link hat htrivial hup hentry fun hrest => ?_
                      rwa [not_and, imp_iff_right hrest, Bool.not_eq_false] at hend
              · next inner hlink hentry => exact .enter hat htrivial hup hentry hlink
  · exact .fault (by simp)
  · next hnone => exact .nowhere hnone

/-! ## Lookups as derivations -/

/-- From a position, the pieces lead to a node and its position, with every link on the way
followed. -/
inductive Leads (fs : FileSystem) :
    List FileName → List FileName → List FileName → Node → Prop
  | here {position : List FileName} {node : Node} (hat : fs.at? position = some node) :
      Leads fs position [] position node
  | skip {position rest goal : List FileName} {piece : FileName} {node : Node} {entries : Entries}
      (hat : fs.at? position = some (.directory entries))
      (htrivial : Path.isTrivial piece = true) (h : Leads fs position rest goal node) :
      Leads fs position (piece :: rest) goal node
  | up {position rest goal : List FileName} {node : Node} {entries : Entries}
      (hat : fs.at? position = some (.directory entries))
      (h : Leads fs position.dropLast rest goal node) :
      Leads fs position ([dot, dot] :: rest) goal node
  | link {position rest goal : List FileName} {piece : FileName} {node : Node} {entries : Entries}
      {target : Path} (hat : fs.at? position = some (.directory entries))
      (htrivial : Path.isTrivial piece = false) (hup : piece ≠ [dot, dot])
      (hentry : Entries.get? piece entries = some (.link target))
      (h : Leads fs (if target.isRooted then [] else position)
        (Path.pieces target.bytes ++ rest) goal node) :
      Leads fs position (piece :: rest) goal node
  | enter {position rest goal : List FileName} {piece : FileName} {node inner : Node}
      {entries : Entries} (hat : fs.at? position = some (.directory entries))
      (htrivial : Path.isTrivial piece = false) (hup : piece ≠ [dot, dot])
      (hentry : Entries.get? piece entries = some inner) (hlink : ∀ target, inner ≠ .link target)
      (h : Leads fs (position ++ [piece]) rest goal node) :
      Leads fs position (piece :: rest) goal node

variable {fs : FileSystem} {position goal goal' : List FileName} {pieces more : List FileName}
  {node node' : Node}

/-- A walk that ends at a node is a derivation, when those behind links are. -/
theorem leads_of_walk {expand : List FileName → List FileName → Except Fault Location}
    (hexpand : ∀ position pieces, expand position pieces = .ok (.present goal node) →
      fs.Leads position pieces goal node)
    (h : fs.walk .target expand position pieces = .ok (.present goal node)) :
    fs.Leads position pieces goal node := by
  induction pieces generalizing position with
  | nil =>
      rw [walk] at h
      split at h
      · next found hat =>
          cases h
          exact .here hat
      · cases h
  | cons piece rest ih =>
      have hstep := fs.walkStep .target expand position piece rest
      generalize fs.walk .target expand position (piece :: rest) = found at h hstep
      cases hstep with
      | skip hat htrivial => exact .skip hat htrivial (ih h)
      | up hat => exact .up hat (ih h)
      | stay _ _ _ _ _ hfollows => cases hfollows
      | link hat htrivial hup hentry => exact .link hat htrivial hup hentry (hexpand _ _ h)
      | enter hat htrivial hup hentry hlink => exact .enter hat htrivial hup hentry hlink (ih h)
      | free => cases h
      | lost => cases h
      | fault => cases h
      | nowhere => cases h

/-- What pieces resolve to is what they lead to. -/
theorem leads_of_resolve {links : Nat}
    (h : fs.resolve .target links position pieces = .ok (.present goal node)) :
    fs.Leads position pieces goal node := by
  induction links generalizing position pieces with
  | zero => exact leads_of_walk (fun _ _ hnone => by cases hnone) h
  | succ links ih => exact leads_of_walk (fun _ _ hlink => ih hlink) h

/-- Where the lookup of a path starts. -/
def start (fs : FileSystem) (path : Path) : List FileName :=
  if path.isRooted then [] else fs.cwd

/-- A path that is found leads to what it is found at. -/
theorem leads_of_locate {path : Path} (h : fs.locate .target path = .ok (.present goal node)) :
    fs.Leads (fs.start path) (Path.pieces path.bytes) goal node := by
  unfold locate at h
  split at h
  · cases h
  · split at h
    · cases h
    · split at h
      · cases h
      · exact leads_of_resolve h

/-- A path leads to a directory when it is found at one. -/
theorem isDirectory_iff {path : Path} :
    fs.isDirectory path = true ↔ ∃ position entries,
      fs.locate .target path = .ok (.present position (.directory entries)) := by
  unfold isDirectory
  constructor
  · intro h
    split at h
    · next position entries hlocate => exact ⟨position, entries, hlocate⟩
    · cases h
  · rintro ⟨position, entries, hlocate⟩
    rw [hlocate]

/-- A path leads to a regular file when it is found at one. -/
theorem isFile_iff {path : Path} :
    fs.isFile path = true ↔ ∃ position content,
      fs.locate .target path = .ok (.present position (.file content)) := by
  unfold isFile
  constructor
  · intro h
    split at h
    · next position content hlocate => exact ⟨position, content, hlocate⟩
    · cases h
  · rintro ⟨position, content, hlocate⟩
    rw [hlocate]

/-! ## What pieces lead to -/

/-- What pieces lead to is at its position. -/
theorem Leads.at?_goal (h : fs.Leads position pieces goal node) : fs.at? goal = some node := by
  induction h with
  | here hat => exact hat
  | skip hat htrivial h ih => exact ih
  | up hat h ih => exact ih
  | link hat htrivial hup hentry h ih => exact ih
  | enter hat htrivial hup hentry hlink h ih => exact ih

/-- A piece that names nothing leads on from where it is met. -/
theorem Leads.of_skip {piece : FileName}
    (h : fs.Leads position (piece :: pieces) goal node) (htrivial : Path.isTrivial piece = true) :
    fs.Leads position pieces goal node := by
  cases h with
  | skip _ _ h => exact h
  | up _ h => cases htrivial
  | link _ hnames => cases htrivial.symm.trans hnames
  | enter _ hnames => cases htrivial.symm.trans hnames

/-- A step up leads on from the directory above. -/
theorem Leads.of_up (h : fs.Leads position ([dot, dot] :: pieces) goal node) :
    fs.Leads position.dropLast pieces goal node := by
  cases h with
  | skip _ hnone => cases hnone
  | up _ h => exact h
  | link _ _ hnames => exact absurd rfl hnames
  | enter _ _ hnames => exact absurd rfl hnames

/-- A piece that names something leads on by its entry: behind the link under it, or into it. -/
theorem Leads.name_cases {piece : FileName} {entries : Entries}
    (h : fs.Leads position (piece :: pieces) goal node)
    (hat : fs.at? position = some (.directory entries)) (htrivial : Path.isTrivial piece = false)
    (hup : piece ≠ [dot, dot]) :
    (∃ target, Entries.get? piece entries = some (.link target) ∧
      fs.Leads (if target.isRooted then [] else position)
        (Path.pieces target.bytes ++ pieces) goal node) ∨
    ∃ inner, Entries.get? piece entries = some inner ∧ (∀ target, inner ≠ .link target) ∧
      fs.Leads (position ++ [piece]) pieces goal node := by
  cases h with
  | skip _ hnone => cases htrivial.symm.trans hnone
  | up _ _ => exact absurd rfl hup
  | link hat' _ _ hentry h =>
      cases hat.symm.trans hat'
      exact .inl ⟨_, hentry, h⟩
  | enter hat' _ _ hentry hlink h =>
      cases hat.symm.trans hat'
      exact .inr ⟨_, hentry, hlink, h⟩

/-- Whatever more pieces lead to, they lead to it from where the first ones lead. -/
theorem Leads.rest (h : fs.Leads position pieces goal node)
    (hmore : fs.Leads position (pieces ++ more) goal' node') : fs.Leads goal more goal' node' := by
  induction h with
  | here hat => exact hmore
  | skip hat htrivial h ih => exact ih (hmore.of_skip htrivial)
  | up hat h ih => exact ih hmore.of_up
  | link hat htrivial hup hentry h ih =>
      rw [List.cons_append] at hmore
      rcases hmore.name_cases hat htrivial hup with ⟨_, hother, hmore⟩ | ⟨_, hother, hlink, -⟩
      · cases hentry.symm.trans hother
        rw [← List.append_assoc] at hmore
        exact ih hmore
      · cases hentry.symm.trans hother
        exact absurd rfl (hlink _)
  | enter hat htrivial hup hentry hlink h ih =>
      rcases hmore.name_cases hat htrivial hup with ⟨_, hother, -⟩ | ⟨-, -, -, hmore⟩
      · cases hentry.symm.trans hother
        exact absurd rfl (hlink _)
      · exact ih hmore

/-- Pieces lead to one node, at one position. -/
theorem Leads.unique (h : fs.Leads position pieces goal node)
    (h' : fs.Leads position pieces goal' node') : goal = goal' ∧ node = node' := by
  rw [← List.append_nil pieces] at h'
  cases h.rest h' with
  | here hat =>
      rw [h.at?_goal] at hat
      cases hat
      exact ⟨rfl, rfl⟩

/-! ## Pieces that name nothing -/

/-- The second pieces are the first without some that name nothing. -/
inductive Trims : List FileName → List FileName → Prop
  | nil : Trims [] []
  | keep {pieces rest : List FileName} (piece : FileName) (h : Trims pieces rest) :
      Trims (piece :: pieces) (piece :: rest)
  | drop {pieces rest : List FileName} {piece : FileName} (htrivial : Path.isTrivial piece = true)
      (h : Trims pieces rest) : Trims (piece :: pieces) rest

/-- A piece that names something is not left out. -/
theorem Trims.of_name {piece : FileName} {tail rest : List FileName}
    (h : Trims (piece :: tail) rest) (htrivial : Path.isTrivial piece = false) :
    ∃ more, rest = piece :: more ∧ Trims tail more := by
  cases h with
  | keep _ h => exact ⟨_, rfl, h⟩
  | drop hnone => cases htrivial.symm.trans hnone

/-- Pieces in front may all be kept. -/
theorem Trims.append {pieces rest : List FileName} (front : List FileName)
    (h : Trims pieces rest) : Trims (front ++ pieces) (front ++ rest) := by
  induction front with
  | nil => exact h
  | cons piece others ih => exact .keep piece ih

/-- All pieces that name nothing may be left out. -/
theorem trims_filter (pieces : List FileName) :
    Trims pieces (pieces.filter fun piece => !Path.isTrivial piece) := by
  induction pieces with
  | nil => exact .nil
  | cons piece rest ih =>
      by_cases htrivial : Path.isTrivial piece = true
      · rw [List.filter_cons_of_neg (by simp [htrivial])]
        exact .drop htrivial ih
      · rw [List.filter_cons_of_pos (by simp [htrivial])]
        exact .keep piece ih

/-- Pieces that name nothing may be left out.  They cannot be put in: a piece after that of a
file, even one that names nothing, is a fault. -/
theorem Leads.trim {rest : List FileName} (h : fs.Leads position pieces goal node)
    (htrims : Trims pieces rest) : fs.Leads position rest goal node := by
  induction h generalizing rest with
  | here hat =>
      cases htrims
      exact .here hat
  | skip hat htrivial h ih =>
      cases htrims with
      | keep _ htrims => exact .skip hat htrivial (ih htrims)
      | drop _ htrims => exact ih htrims
  | up hat h ih =>
      cases htrims with
      | keep _ htrims => exact .up hat (ih htrims)
      | drop htrivial => cases htrivial
  | link hat htrivial hup hentry h ih =>
      cases htrims with
      | keep _ htrims => exact .link hat htrivial hup hentry (ih (htrims.append _))
      | drop htrivial' => cases htrivial.symm.trans htrivial'
  | enter hat htrivial hup hentry hlink h ih =>
      cases htrims with
      | keep _ htrims => exact .enter hat htrivial hup hentry hlink (ih htrims)
      | drop htrivial' => cases htrivial.symm.trans htrivial'

/-- A path that is found leads to it by its components. -/
theorem leads_of_components {path : Path} (h : fs.locate .target path = .ok (.present goal node)) :
    fs.Leads (fs.start path) (path.components.filterMap Component.piece?) goal node := by
  have hleads := (leads_of_locate h).trim (trims_filter _)
  rwa [Path.filter_pieces] at hleads

/-- Paths start at the same position when both or none of them are rooted. -/
theorem start_eq {p q : Path}
    (h : p.components.head? = some .root ↔ q.components.head? = some .root) :
    fs.start p = fs.start q := by
  have hrooted : p.isRooted = q.isRooted := by
    rw [Bool.eq_iff_iff, Path.isRooted_iff, Path.isRooted_iff, h]
  rw [start, start, hrooted]

/-- Paths with the same components lead to the same node, as far as they are found. -/
theorem node_eq_of_same {p q : Path} (hsame : p.same q = true)
    (hp : fs.locate .target p = .ok (.present goal node))
    (hq : fs.locate .target q = .ok (.present goal' node')) : goal = goal' ∧ node = node' := by
  rw [Path.same_iff] at hsame
  have hleads := leads_of_components hp
  have hstart : fs.start p = fs.start q := start_eq (by rw [hsame])
  rw [hsame, hstart] at hleads
  exact hleads.unique (leads_of_components hq)

end FileSystem

/-! ## Names along a tree -/

/-- A name that a directory can have for an entry. -/
structure FileName.Proper (name : FileName) : Prop where
  names : Path.isTrivial name = false
  notUp : name ≠ [dot, dot]
  noSlash : slash ∉ name

instance (name : FileName) : Decidable name.Proper :=
  decidable_of_iff (Path.isTrivial name = false ∧ name ≠ [dot, dot] ∧ slash ∉ name)
    ⟨fun ⟨hname, hup, hslash⟩ => ⟨hname, hup, hslash⟩,
      fun ⟨hname, hup, hslash⟩ => ⟨hname, hup, hslash⟩⟩

namespace FileSystem

variable {fs : FileSystem} {position goal goal' : List FileName} {node node' leaf : Node}

/-- Names that lead along a tree lead there, when no link is at their end. -/
theorem leads_of_at? {names : List FileName} (hat : fs.at? position = some node)
    (hleaf : node.at? names = some leaf) (hproper : ∀ name ∈ names, name.Proper)
    (hlink : ∀ target, leaf ≠ .link target) :
    fs.Leads position names (position ++ names) leaf := by
  induction names generalizing position node with
  | nil =>
      cases hleaf
      rw [List.append_nil]
      exact .here hat
  | cons name rest ih =>
      cases node with
      | file content => cases hleaf
      | link target => cases hleaf
      | directory entries =>
          obtain ⟨inner, hentry, hinner⟩ := Option.bind_eq_some_iff.1 hleaf
          obtain ⟨hname, hup, -⟩ := hproper name List.mem_cons_self
          have hnolink : ∀ target, inner ≠ .link target := by
            rintro target rfl
            cases rest with
            | nil =>
                cases hinner
                exact hlink target rfl
            | cons next others => cases hinner
          have hrest := ih (at?_entry hat hentry) hinner fun other hother =>
            hproper other (List.mem_cons_of_mem _ hother)
          rw [List.append_assoc] at hrest
          exact .enter hat hname hup hentry hnolink hrest

/-- The pieces of names are the names. -/
theorem filterMap_piece?_names (names : List FileName) :
    (names.map Component.name).filterMap Component.piece? = names := by
  rw [List.filterMap_map]
  exact List.filterMap_some

/-- A path whose components go on from those of a directory by names of its tree leads to the
node there, as far as it is found. -/
theorem node_eq_of_below {directory path : Path} {names : List FileName}
    (hdirectory : fs.locate .target directory = .ok (.present position node))
    (hleaf : node.at? names = some leaf) (hproper : ∀ name ∈ names, name.Proper)
    (hlink : ∀ target, leaf ≠ .link target)
    (hcomponents : path.components = directory.components ++ names.map .name)
    (hpath : fs.locate .target path = .ok (.present goal node')) :
    goal = position ++ names ∧ node' = leaf := by
  have hbase := leads_of_components hdirectory
  have hleads := leads_of_components hpath
  have hstart : fs.start path = fs.start directory := by
    refine start_eq ?_
    rw [hcomponents]
    cases directory.components with
    | nil => cases names <;> simp
    | cons first rest => rfl
  rw [hcomponents, hstart, List.filterMap_append, filterMap_piece?_names] at hleads
  exact (hbase.rest hleads).unique (leads_of_at? hbase.at?_goal hleaf hproper hlink)

end FileSystem

end NativeBuild
