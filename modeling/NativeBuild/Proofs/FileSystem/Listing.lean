import NativeBuild.FileSystem.Walk
import NativeBuild.Proofs.FileSystem.Lookup

/-!
# What a walk lists

A walk lists what lies below a node along the names that it keeps.  In a tree as a disk holds
it, whose directories have proper and different names, this is what the tree has at these
positions.

Main definitions:

- `Path.below`: the path of what lies below a directory along some names.
- `Entries.Proper`, `Node.Proper` and `FileSystem.Proper`: trees whose directories have proper
  and different names.

Main results:

- Theorem `mem_listing_directory`: what is met in a directory.
- Theorem `at?_of_mem_listing`: what is met lies in the tree.
- Theorem `mem_listing_of_at?`: what lies in the tree is met.
- Theorem `listing_ok_iff`: when nothing stops a walk.
-/

namespace NativeBuild

/-! ## Paths below a directory -/

/-- The path of what lies below a directory along some names. -/
def Path.below (path : Path) (names : List FileName) : Path :=
  names.foldl Path.child path

/-- A path below a directory along names ends with the last of them. -/
theorem Path.below_concat (path : Path) (names : List FileName) (name : FileName) :
    path.below (names ++ [name]) = (path.below names).child name := by
  rw [below, List.foldl_append]
  rfl

/-- The components of a path below a directory. -/
theorem Path.components_below (path : Path) {names : List FileName}
    (hproper : ∀ name ∈ names, name.Proper) :
    (path.below names).components = path.components ++ names.map .name := by
  induction names generalizing path with
  | nil => simp [below]
  | cons name rest ih =>
      obtain ⟨hname, hup, hslash⟩ := hproper name List.mem_cons_self
      have hrest := ih (path.child name) fun other hother =>
        hproper other (List.mem_cons_of_mem _ hother)
      rw [path.components_child hslash hname hup, List.append_assoc] at hrest
      exact hrest

/-! ## Proper trees -/

/-- The entries have proper names, and each name is that of one entry. -/
structure Entries.Proper (entries : Entries) : Prop where
  distinct : (entries.map (·.1)).Nodup
  names : ∀ entry ∈ entries, FileName.Proper entry.1

instance (entries : Entries) : Decidable (Entries.Proper entries) :=
  decidable_of_iff ((entries.map (·.1)).Nodup ∧ ∀ entry ∈ entries, FileName.Proper entry.1)
    ⟨fun ⟨hdistinct, hnames⟩ => ⟨hdistinct, hnames⟩,
      fun ⟨hdistinct, hnames⟩ => ⟨hdistinct, hnames⟩⟩

/-- Every directory of the tree has proper entries. -/
def Node.Proper (node : Node) : Prop :=
  ∀ position entries, node.at? position = some (.directory entries) → Entries.Proper entries

/-- Every directory of the file system has proper entries. -/
def FileSystem.Proper (fs : FileSystem) : Prop :=
  (Node.directory fs.root).Proper

/-- What is looked up under a name is an entry with that name. -/
theorem Entries.mem_of_get? {entries : Entries} {name : FileName} {node : Node}
    (h : Entries.get? name entries = some node) : (name, node) ∈ entries := by
  induction entries with
  | nil => cases h
  | cons entry rest ih =>
      obtain ⟨other, inner⟩ := entry
      rw [Entries.get?] at h
      split at h
      · next heq =>
          cases h
          rw [heq]
          exact List.mem_cons_self
      · exact List.mem_cons_of_mem _ (ih h)

/-- Where names are different, an entry is found by its name. -/
theorem Entries.get?_of_mem {entries : Entries} {name : FileName} {node : Node}
    (hdistinct : (entries.map (·.1)).Nodup) (h : (name, node) ∈ entries) :
    Entries.get? name entries = some node := by
  induction entries with
  | nil => cases h
  | cons entry rest ih =>
      obtain ⟨other, inner⟩ := entry
      obtain ⟨hnew, hrest⟩ := List.nodup_cons.1 hdistinct
      rw [Entries.get?]
      rcases List.mem_cons.1 h with heq | h
      · cases heq
        rw [if_pos rfl]
      · have hne : other ≠ name := by
          rintro rfl
          exact hnew (List.mem_map.2 ⟨_, h, rfl⟩)
        rw [if_neg hne]
        exact ih hrest h

namespace Node

variable {node leaf inner : Node} {position : List FileName}

/-- All below a proper node is proper. -/
theorem Proper.of_at? (h : node.Proper) (hat : node.at? position = some inner) :
    inner.Proper := by
  intro rest entries hentries
  refine h (position ++ rest) entries ?_
  rw [at?_append, hat]
  exact hentries

/-- A file is proper. -/
theorem proper_file (content : List UInt8) : (file content).Proper := by
  intro position entries h
  cases position <;> cases h

/-- A link is proper. -/
theorem proper_link (target : Path) : (link target).Proper := by
  intro position entries h
  cases position <;> cases h

/-- A directory is proper when its entries and the trees below them are. -/
theorem proper_directory {entries : Entries} (hentries : Entries.Proper entries)
    (hbelow : ∀ entry ∈ entries, entry.2.Proper) : (directory entries).Proper := by
  intro position others h
  cases position with
  | nil =>
      cases h
      exact hentries
  | cons name rest =>
      obtain ⟨inner, hentry, hrest⟩ := Option.bind_eq_some_iff.1 h
      exact hbelow _ (Entries.mem_of_get? hentry) rest others hrest

/-- A directory with one entry is proper when the entry is. -/
theorem proper_singleton {name : FileName} (hname : name.Proper) (hnode : node.Proper) :
    (directory [(name, node)]).Proper := by
  refine proper_directory ⟨by simp, ?_⟩ ?_
  · simpa using hname
  · simpa using hnode

/-- In a proper directory, an entry is found by its name. -/
theorem Proper.at?_of_mem {entries : Entries} {name : FileName}
    (h : (directory entries).Proper) (hentry : (name, inner) ∈ entries) :
    (directory entries).at? [name] = some inner := by
  simp [at?, Entries.get?_of_mem (h [] entries rfl).distinct hentry]

/-- Names along a proper tree are proper. -/
theorem Proper.names (h : node.Proper) (hat : node.at? position = some leaf) :
    ∀ name ∈ position, name.Proper := by
  induction position generalizing node with
  | nil => simp
  | cons name rest ih =>
      cases node with
      | file content => cases hat
      | link target => cases hat
      | directory entries =>
          obtain ⟨inner, hentry, hrest⟩ := Option.bind_eq_some_iff.1 hat
          have hfirst : (Node.directory entries).at? [name] = some inner := by
            simp [at?, hentry]
          intro other hother
          rcases List.mem_cons.1 hother with rfl | hother
          · exact (h [] entries rfl).names _ (Entries.mem_of_get? hentry)
          · exact ih (h.of_at? hfirst) hrest other hother

/-- Trees are built from files and links by directories. -/
theorem ind {motive : Node → Prop} (file : ∀ content, motive (.file content))
    (link : ∀ target, motive (.link target))
    (directory : ∀ entries, (∀ entry ∈ entries, motive entry.2) → motive (.directory entries))
    (node : Node) : motive node := by
  refine @Node.rec motive (fun entries => ∀ entry ∈ entries, motive entry.2)
    (fun entry => motive entry.2) file link directory (by simp) ?_ (fun _ _ h => h) node
  intro head tail hhead htail entry hentry
  rcases List.mem_cons.1 hentry with rfl | hentry
  · exact hhead
  · exact htail entry hentry

end Node

/-- What a path leads to in a proper file system is proper. -/
theorem FileSystem.Proper.of_locate {fs : FileSystem} {path : Path} {position : List FileName}
    {node : Node} (h : fs.Proper)
    (hlocate : fs.locate .target path = .ok (.present position node)) : node.Proper :=
  h.of_at? (leads_of_locate hlocate).at?_goal

/-! ## What is met -/

/-- The groups of a directory, entry by entry. -/
theorem listingGroups_eq_map (keep : FileName → Bool) (path : Path)
    (entries : List (FileName × Node)) :
    listingGroups keep path entries = entries.map fun entry =>
      (entry.1,
        if entry.2.kind = .directory ∧ keep entry.1 = false then []
        else .ok ⟨path.child entry.1, entry.1, entry.2.kind⟩ ::
          entry.2.listing keep (path.child entry.1)) := by
  induction entries with
  | nil => rfl
  | cons entry rest ih =>
      rw [listingGroups, ih]
      rfl

/-- What is met in a directory: that it cannot be read, or an entry that is kept, or something
below such an entry. -/
theorem mem_listing_directory {keep : FileName → Bool} {path : Path} {entries : Entries}
    {met : Met} :
    met ∈ (Node.directory entries).listing keep path ↔
      if FileSystem.maxPath < path.bytes.length then met = .error ⟨path, .nameTooLong⟩
      else ∃ name node, (name, node) ∈ entries ∧ (node.kind = .directory → keep name = true) ∧
        (met = .ok ⟨path.child name, name, node.kind⟩ ∨
          met ∈ node.listing keep (path.child name)) := by
  rw [Node.listing]
  by_cases hlong : FileSystem.maxPath < path.bytes.length
  · rw [if_pos hlong, if_pos hlong, List.mem_singleton]
  · rw [if_neg hlong, if_neg hlong, listingGroups_eq_map]
    constructor
    · intro h
      obtain ⟨group, hgroup, hmet⟩ := List.mem_flatMap.1 h
      obtain ⟨⟨name, node⟩, hentry, rfl⟩ := List.mem_map.1 (List.mem_mergeSort.1 hgroup)
      refine ⟨name, node, hentry, ?_⟩
      split at hmet
      · cases hmet
      · next hkept =>
          refine ⟨fun hkind => ?_, List.mem_cons.1 hmet⟩
          by_contra hskip
          exact hkept ⟨hkind, Bool.not_eq_true _ ▸ hskip⟩
    · rintro ⟨name, node, hentry, hkept, hmet⟩
      refine List.mem_flatMap.2 ⟨_, List.mem_mergeSort.2 (List.mem_map.2 ⟨_, hentry, rfl⟩), ?_⟩
      have hnotskipped : ¬ (node.kind = .directory ∧ keep name = false) := by
        rintro ⟨hkind, hskip⟩
        rw [hkept hkind] at hskip
        cases hskip
      rw [if_neg hnotskipped]
      exact List.mem_cons.2 hmet

variable {keep : FileName → Bool} {path : Path} {node leaf : Node}

/-- Only below a directory is something met. -/
theorem kind_of_mem_listing {met : Met} (h : met ∈ node.listing keep path) :
    node.kind = .directory := by
  cases node with
  | file content => cases h
  | link target => cases h
  | directory entries => rfl

/-- What is met lies in the tree, along names that are kept. -/
theorem at?_of_mem_listing {entry : Visited} (hproper : node.Proper)
    (h : .ok entry ∈ node.listing keep path) :
    ∃ names leaf, entry.path = path.below (names ++ [entry.name]) ∧
      (∀ name ∈ names, keep name = true) ∧ node.at? (names ++ [entry.name]) = some leaf ∧
      leaf.kind = entry.kind := by
  induction node using Node.ind generalizing path with
  | file content => cases h
  | link target => cases h
  | directory entries ih =>
      rw [mem_listing_directory] at h
      split at h
      · cases h
      · obtain ⟨name, inner, hentry, hkept, heq | hbelow⟩ := h
        · cases heq
          exact ⟨[], inner, rfl, by simp, hproper.at?_of_mem hentry, rfl⟩
        · have hat := hproper.at?_of_mem hentry
          obtain ⟨names, leaf, hpath, hkeep, hleaf, hkind⟩ :=
            ih _ hentry (hproper.of_at? hat) hbelow
          refine ⟨name :: names, leaf, hpath, ?_, ?_, hkind⟩
          · intro other hother
            rcases List.mem_cons.1 hother with rfl | hother
            · exact hkept (kind_of_mem_listing hbelow)
            · exact hkeep other hother
          · rw [List.cons_append, ← List.singleton_append, Node.at?_append, hat]
            exact hleaf

/-- Where nothing stops the walk, a directory is read. -/
theorem length_le_of_listing {entries : Entries}
    (hall : ∀ met ∈ (Node.directory entries).listing keep path, ∃ entry, met = .ok entry) :
    path.bytes.length ≤ FileSystem.maxPath := by
  by_contra hlong
  have hstop : .error ⟨path, .nameTooLong⟩ ∈ (Node.directory entries).listing keep path := by
    rw [mem_listing_directory, if_pos (Nat.lt_of_not_le hlong)]
  obtain ⟨entry, hentry⟩ := hall _ hstop
  cases hentry

/-- What is met below an entry that is kept is met below its directory, when that is read. -/
theorem mem_listing_of_entry {entries : Entries} {name : FileName} {met : Met}
    (hshort : path.bytes.length ≤ FileSystem.maxPath) (hkeep : keep name = true)
    (hentry : Entries.get? name entries = some node)
    (h : met ∈ node.listing keep (path.child name)) :
    met ∈ (Node.directory entries).listing keep path := by
  rw [mem_listing_directory, if_neg (Nat.not_lt.2 hshort)]
  exact ⟨name, node, Entries.mem_of_get? hentry, fun _ => hkeep, .inr h⟩

/-- What lies in the tree along names that are kept is met, where nothing stops the walk. -/
theorem mem_listing_of_at? {names : List FileName} {name : FileName}
    (hall : ∀ met ∈ node.listing keep path, ∃ entry, met = .ok entry)
    (hkeep : ∀ name ∈ names, keep name = true) (hat : node.at? (names ++ [name]) = some leaf)
    (hleaf : leaf.kind ≠ .directory) :
    .ok ⟨path.below (names ++ [name]), name, leaf.kind⟩ ∈ node.listing keep path := by
  induction names generalizing node path with
  | nil =>
      cases node with
      | file content => cases hat
      | link target => cases hat
      | directory entries =>
          obtain ⟨inner, hentry, hinner⟩ := Option.bind_eq_some_iff.1 hat
          cases hinner
          rw [mem_listing_directory, if_neg (Nat.not_lt.2 (length_le_of_listing hall))]
          exact ⟨name, leaf, Entries.mem_of_get? hentry, fun hkind => absurd hkind hleaf, .inl rfl⟩
  | cons first rest ih =>
      cases node with
      | file content => cases hat
      | link target => cases hat
      | directory entries =>
          obtain ⟨inner, hentry, hinner⟩ := Option.bind_eq_some_iff.1 hat
          have hfirst := hkeep first List.mem_cons_self
          have hshort := length_le_of_listing hall
          apply mem_listing_of_entry hshort hfirst hentry
          refine ih ?_ ?_ hinner
          · intro met hmet
            exact hall met (mem_listing_of_entry hshort hfirst hentry hmet)
          · intro other hother
            exact hkeep other (List.mem_cons_of_mem _ hother)

/-- Nothing stops the walk when no directory that it comes to has a path too long to be read. -/
theorem listing_ok_iff (hproper : node.Proper) :
    (∀ met ∈ node.listing keep path, ∃ entry, met = .ok entry) ↔
      ∀ names entries, (∀ name ∈ names, keep name = true) →
        node.at? names = some (.directory entries) →
          (path.below names).bytes.length ≤ FileSystem.maxPath := by
  constructor
  · intro hall names entries hkeep hat
    induction names generalizing node path with
    | nil =>
        cases hat
        exact length_le_of_listing hall
    | cons first rest ih =>
        cases node with
        | file content => cases hat
        | link target => cases hat
        | directory others =>
            obtain ⟨inner, hentry, hinner⟩ := Option.bind_eq_some_iff.1 hat
            have hfirst := hkeep first List.mem_cons_self
            have hshort := length_le_of_listing hall
            have hinnerProper := hproper.of_at? (hproper.at?_of_mem (Entries.mem_of_get? hentry))
            refine ih hinnerProper ?_ ?_ hinner
            · intro met hmet
              exact hall met (mem_listing_of_entry hshort hfirst hentry hmet)
            · intro other hother
              exact hkeep other (List.mem_cons_of_mem _ hother)
  · intro hshort met hmet
    induction node using Node.ind generalizing path with
    | file content => cases hmet
    | link target => cases hmet
    | directory entries ih =>
        have hread : path.bytes.length ≤ FileSystem.maxPath := hshort [] entries (by simp) rfl
        rw [mem_listing_directory, if_neg (Nat.not_lt.2 hread)] at hmet
        obtain ⟨name, inner, hentry, hkept, rfl | hbelow⟩ := hmet
        · exact ⟨_, rfl⟩
        · have hat := hproper.at?_of_mem hentry
          refine ih _ hentry (hproper.of_at? hat) ?_ hbelow
          intro names others hkeep hothers
          refine hshort (name :: names) others ?_ ?_
          · intro other hother
            rcases List.mem_cons.1 hother with rfl | hother
            · exact hkept (kind_of_mem_listing hbelow)
            · exact hkeep other hother
          · rw [← List.singleton_append, Node.at?_append, hat]
            exact hothers

end NativeBuild
