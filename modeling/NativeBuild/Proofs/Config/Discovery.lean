import Mathlib
import NativeBuild.Config.Workspace
import NativeBuild.Proofs.FileSystem.Listing
import NativeBuild.Proofs.Traversal

/-!
# Discovered projects

The projects of a workspace are the manifest files below its search directories, along
directories that are searched.  Search directories may lie in each other or be named twice: a
manifest is met once for each of them, under paths that are the same by their components, and
the definitions it gives are the same too.  So the discovered list has each path once, and the
order of the search directories and their repetitions do not count.

Main definitions:

- `Workspace.HasManifest`: a manifest file that is found from a search directory.
- `Workspace.Describes`: the definition that such a file gives.
- `Definition.Same`: definitions with the same manifest, whose paths are the same by components.
- `Workspace.Readable`: a search directory below which everything can be read.
- `Workspace.withSearch`: the workspace with other search directories.
- `Workspace.Discovered`: a definition that is discovered below a search directory.
- `Workspace.Lists`: definitions that are those of all manifest files, each path once.

Main results:

- Theorem `describes_of_definitionAt`: what is read below a search directory.
- Theorems `Discovered.describes` and `HasManifest.discovered`: what is discovered below one
  search directory.
- Theorem `exists_discoverIn_iff`: when anything is discovered there.
- Theorem `increasing_dropRepeats`: each path is kept once.
- Theorem `discover_withSearch`: the order of the search directories does not count.
- Theorem `discover_exact`: what is discovered in a workspace.
-/

namespace NativeBuild

/-! ## What there is to discover -/

/-- Two definitions have the same manifest, and their paths are the same by components. -/
structure Definition.Same (d e : Definition) : Prop where
  path : d.manifestPath.same e.manifestPath = true
  root : d.root.same e.root = true
  manifest : d.manifest = e.manifest

namespace Workspace

/-- The name of the manifest files. -/
def manifestName (w : Workspace) : FileName :=
  Text.utf8 w.settings.projects.manifest

/-- Where the manifest file lies that is below a search directory along some names. -/
def manifestPath (w : Workspace) (search : Path) (names : List FileName) : Path :=
  (w.root.join search).below (names ++ [w.manifestName])

/-- Below a search directory, along directories that are searched, lies a manifest file.  The
search directory itself may have any name and lie behind links; below it, no link is followed. -/
structure HasManifest (w : Workspace) (fs : FileSystem) (search : Path) (names : List FileName)
    (content : List UInt8) : Prop where
  searched : ∀ name ∈ names, isSearched name = true
  exists_file : ∃ position directory,
    fs.locate .target (w.root.join search) = .ok (.present position directory) ∧
      directory.at? (names ++ [w.manifestName]) = some (.file content)

/-- A definition is that of the manifest file below a search directory along some names: it has
the path of the file, the directory above it as its root, and what the file says. -/
structure Describes (w : Workspace) (search : Path) (names : List FileName)
    (content : List UInt8) (d : Definition) : Prop where
  path : d.manifestPath.same (w.manifestPath search names) = true
  parent : d.manifestPath.parent? = some d.root
  root : d.root.same ((w.root.join search).below names) = true
  manifest : (Text.decode? content).bind Manifest.read = some d.manifest

/-- Everything below a search directory can be read: it leads to a directory, no directory that
is searched has a path too long to be read, and every manifest file holds a manifest. -/
structure Readable (w : Workspace) (fs : FileSystem) (search : Path) : Prop where
  isDirectory : fs.isDirectory (w.root.join search) = true
  short : ∀ position directory names entries,
    fs.locate .target (w.root.join search) = .ok (.present position directory) →
      (∀ name ∈ names, isSearched name = true) →
        directory.at? names = some (.directory entries) →
          ((w.root.join search).below names).bytes.length ≤ FileSystem.maxPath
  loads : ∀ names content, w.HasManifest fs search names content →
    ∃ manifest, Manifest.load fs (w.manifestPath search names) = .ok manifest

/-- The workspace with other search directories. -/
def withSearch (w : Workspace) (search : List Path) : Workspace :=
  { w with settings :=
    { w.settings with projects := { w.settings.projects with search := search } } }

variable {w : Workspace} {fs : FileSystem} {search : Path} {names : List FileName}
  {content : List UInt8} {d : Definition} {defs : List Definition}

/-! ## Reading a manifest -/

/-- A manifest that is loaded is what a file at the path says. -/
theorem load_eq_ok {file : Path} {manifest : Manifest}
    (h : Manifest.load fs file = .ok manifest) :
    ∃ position content, fs.locate .target file = .ok (.present position (.file content)) ∧
      (Text.decode? content).bind Manifest.read = some manifest := by
  unfold Manifest.load readConfig FileSystem.readText FileSystem.readFile at h
  cases hlocate : fs.locate .target file with
  | error fault => cases fault <;> simp [hlocate, bind, Except.bind] at h
  | ok location =>
      cases location with
      | absent directory name => simp [hlocate, bind, Except.bind] at h
      | present position node =>
          cases node with
          | link target => simp [hlocate, bind, Except.bind] at h
          | directory entries => simp [hlocate, bind, Except.bind] at h
          | file content =>
              refine ⟨position, content, rfl, ?_⟩
              cases htext : Text.decode? content with
              | none => simp [hlocate, htext, bind, Except.bind] at h
              | some text =>
                  cases hread : Manifest.read text with
                  | none => simp [hlocate, htext, hread, bind, Except.bind] at h
                  | some found =>
                      simp [hlocate, htext, hread, bind, Except.bind, pure, Except.pure] at h
                      simp [hread, h]

/-- A definition holds the manifest of its file, and its root is the directory of that. -/
theorem definitionAt_eq_ok {searched file : Path} (h : definitionAt fs searched file = .ok d) :
    Manifest.load fs file = .ok d.manifest ∧ d.manifestPath = file ∧
      d.root = file.parent?.getD searched := by
  unfold definitionAt at h
  cases hload : Manifest.load fs file with
  | error e => simp [hload, bind, Except.bind] at h
  | ok manifest =>
      simp only [hload, bind, Except.bind, pure, Except.pure] at h
      cases h
      exact ⟨rfl, rfl, rfl⟩

/-- A file with a manifest gives a definition. -/
theorem exists_definitionAt {searched file : Path} {manifest : Manifest}
    (h : Manifest.load fs file = .ok manifest) : ∃ d, definitionAt fs searched file = .ok d := by
  unfold definitionAt
  rw [h]
  exact ⟨_, rfl⟩

/-- Paths that are the same by their components are loaded with the same result. -/
theorem manifest_eq_of_same {p q : Path} {manifest other : Manifest} (hsame : p.same q = true)
    (hp : Manifest.load fs p = .ok manifest) (hq : Manifest.load fs q = .ok other) :
    manifest = other := by
  obtain ⟨position, content, hlocate, hread⟩ := load_eq_ok hp
  obtain ⟨position', content', hlocate', hread'⟩ := load_eq_ok hq
  obtain ⟨-, hcontent⟩ := FileSystem.node_eq_of_same hsame hlocate hlocate'
  cases hcontent
  rw [hread] at hread'
  cases hread'
  rfl

/-- The names along which a manifest file lies, with its own, are proper. -/
theorem HasManifest.proper (hproper : fs.Proper) (h : w.HasManifest fs search names content) :
    ∀ name ∈ names ++ [w.manifestName], name.Proper := by
  obtain ⟨position, directory, hdirectory, hfile⟩ := h.exists_file
  have hbase : directory.Proper := hproper.of_locate hdirectory
  exact hbase.names hfile

/-- What is read where a manifest file lies below a search directory is its definition. -/
theorem describes_of_definitionAt (hproper : fs.Proper)
    (hmanifest : w.HasManifest fs search names content)
    (h : definitionAt fs (w.root.join search) (w.manifestPath search names) = .ok d) :
    w.Describes search names content d := by
  obtain ⟨position, directory, hdirectory, hfile⟩ := hmanifest.exists_file
  obtain ⟨hload, hpath, hroot⟩ := definitionAt_eq_ok h
  obtain ⟨goal, content', hgoal, hread⟩ := load_eq_ok hload
  have hnames := hmanifest.proper hproper
  have hcomponents := (w.root.join search).components_below hnames
  -- The path that was read leads to the file in the tree below the search directory.
  obtain ⟨-, hsame⟩ := FileSystem.node_eq_of_below hdirectory hfile hnames (by simp)
    hcomponents hgoal
  cases hsame
  have hlast : w.manifestName.Proper := hnames _ (by simp)
  obtain ⟨parent, hparent, habove⟩ :=
    ((w.root.join search).below names).parent?_child hlast.noSlash hlast.names hlast.notUp
  rw [← Path.below_concat] at hparent
  have hrootEq : d.root = parent := by
    rw [hroot, manifestPath, hparent, Option.getD_some]
  refine ⟨by rw [hpath, Path.same_refl], ?_, ?_, hread⟩
  · rw [hpath, hrootEq]
    exact hparent
  · rw [Path.same_iff, hrootEq, habove]

/-- The path of a definition goes on from its root by the name of manifest files. -/
theorem Describes.components_path (hproper : fs.Proper)
    (hmanifest : w.HasManifest fs search names content) (h : w.Describes search names content d) :
    d.manifestPath.components = d.root.components ++ [.name w.manifestName] := by
  have hnames := hmanifest.proper hproper
  have hbefore : ∀ name ∈ names, name.Proper := by
    intro name hname
    apply hnames
    simp [hname]
  have hroot := Path.same_iff.1 h.root
  rw [Path.components_below _ hbefore] at hroot
  rw [Path.same_iff.1 h.path, manifestPath, Path.components_below _ hnames, hroot]
  simp

/-! ## One search directory -/

/-- What a walk meets gives a definition when it is a manifest file that can be read. -/
theorem definitionMet?_eq_some {searched : Path} {met : Met} :
    w.definitionMet? fs searched met = .ok (some d) ↔
      ∃ entry, met = .ok entry ∧ w.isManifest entry = true ∧
        definitionAt fs searched entry.path = .ok d := by
  cases met with
  | error stop => simp [definitionMet?]
  | ok entry =>
      by_cases hmanifest : w.isManifest entry = true
      · cases hread : definitionAt fs searched entry.path <;>
          simp [definitionMet?, hmanifest, hread, Functor.map, Except.map]
      · simp [definitionMet?, hmanifest]

/-- What stops a walk gives no definition. -/
theorem exists_entry_of_definitionMet? {searched : Path} {met : Met} {found : Option Definition}
    (h : w.definitionMet? fs searched met = .ok found) : ∃ entry, met = .ok entry := by
  cases met with
  | error stop => simp [definitionMet?] at h
  | ok entry => exact ⟨entry, rfl⟩

/-- A search directory whose definitions are discovered leads to a directory, in which nothing
stops the walk, and they are those that the walk meets. -/
theorem discoverIn_eq_ok (h : w.discoverIn fs search = .ok defs) :
    ∃ position directory,
      fs.locate .target (w.root.join search) = .ok (.present position directory) ∧
      (∀ met ∈ directory.listing isSearched (w.root.join search),
        ∃ found, w.definitionMet? fs (w.root.join search) met = .ok found) ∧
      ∀ d, d ∈ defs ↔ ∃ met ∈ directory.listing isSearched (w.root.join search),
        w.definitionMet? fs (w.root.join search) met = .ok (some d) := by
  unfold discoverIn at h
  by_cases hdirectory : fs.isDirectory (w.root.join search) = true
  · simp only [hdirectory, if_true] at h
    cases hfound : (fs.walkBelow isSearched (w.root.join search)).mapM
        (w.definitionMet? fs (w.root.join search)) with
    | error e => simp [hfound, bind, Except.bind] at h
    | ok found =>
        simp only [hfound, bind, Except.bind, pure, Except.pure] at h
        cases h
        obtain ⟨position, entries, hlocate⟩ := FileSystem.isDirectory_iff.1 hdirectory
        simp only [FileSystem.walkBelow, hlocate] at hfound
        refine ⟨position, .directory entries, hlocate, ?_, ?_⟩
        · intro met hmet
          obtain ⟨value, -, hvalue⟩ := exists_mem_of_mapM hfound hmet
          exact ⟨value, hvalue⟩
        · intro d
          simp only [List.mem_filterMap, id]
          constructor
          · rintro ⟨value, hvalue, rfl⟩
            exact exists_of_mem_mapM hfound hvalue
          · rintro ⟨met, hmet, hd⟩
            obtain ⟨value, hmem, hvalue⟩ := exists_mem_of_mapM hfound hmet
            rw [hd] at hvalue
            cases hvalue
            exact ⟨_, hmem, rfl⟩
  · simp [hdirectory] at h

/-- A definition is discovered below a search directory. -/
def Discovered (w : Workspace) (fs : FileSystem) (search : Path) (d : Definition) : Prop :=
  ∃ found, w.discoverIn fs search = .ok found ∧ d ∈ found

/-- What is discovered is read from the manifest file of an entry that a walk meets. -/
theorem Discovered.exists_entry (h : w.Discovered fs search d) :
    ∃ position directory entry,
      fs.locate .target (w.root.join search) = .ok (.present position directory) ∧
      .ok entry ∈ directory.listing isSearched (w.root.join search) ∧
      w.isManifest entry = true ∧ definitionAt fs (w.root.join search) entry.path = .ok d := by
  obtain ⟨found, hfound, hd⟩ := h
  obtain ⟨position, directory, hdirectory, -, hmem⟩ := discoverIn_eq_ok hfound
  obtain ⟨met, hmet, hdefinition⟩ := (hmem d).1 hd
  obtain ⟨entry, rfl, hentry, hread⟩ := definitionMet?_eq_some.1 hdefinition
  exact ⟨position, directory, entry, hdirectory, hmet, hentry, hread⟩

/-- The manifest of a definition that is discovered is that of its file. -/
theorem Discovered.load (h : w.Discovered fs search d) :
    Manifest.load fs d.manifestPath = .ok d.manifest := by
  obtain ⟨-, -, entry, -, -, -, hread⟩ := h.exists_entry
  obtain ⟨hload, hpath, -⟩ := definitionAt_eq_ok hread
  rw [hpath]
  exact hload

/-- A manifest file that a walk meets lies below the search directory. -/
theorem hasManifest_of_met {position : List FileName} {directory : Node} {entry : Visited}
    (hproper : fs.Proper)
    (hdirectory : fs.locate .target (w.root.join search) = .ok (.present position directory))
    (hmet : .ok entry ∈ directory.listing isSearched (w.root.join search))
    (hentry : w.isManifest entry = true) :
    ∃ names content, entry.path = w.manifestPath search names ∧
      w.HasManifest fs search names content := by
  have hmanifest : entry.kind = .file ∧ entry.name = w.manifestName := by
    simpa [isManifest, manifestName] using hentry
  have hbase : directory.Proper := hproper.of_locate hdirectory
  obtain ⟨names, leaf, hpath, hsearched, hleaf, hkind⟩ := at?_of_mem_listing hbase hmet
  rw [hmanifest.2] at hpath hleaf
  rw [hmanifest.1] at hkind
  cases leaf with
  | link target => cases hkind
  | directory entries => cases hkind
  | file content => exact ⟨names, content, hpath, hsearched, position, directory, hdirectory, hleaf⟩

/-- What is discovered below a search directory is described by a manifest file there. -/
theorem Discovered.describes (hproper : fs.Proper) (h : w.Discovered fs search d) :
    ∃ names content, d.manifestPath = w.manifestPath search names ∧
      w.HasManifest fs search names content ∧ w.Describes search names content d := by
  obtain ⟨position, directory, entry, hdirectory, hmet, hentry, hread⟩ := h.exists_entry
  obtain ⟨names, content, hpath, hmanifest⟩ :=
    hasManifest_of_met hproper hdirectory hmet hentry
  rw [hpath] at hread
  obtain ⟨-, hplace, -⟩ := definitionAt_eq_ok hread
  exact ⟨names, content, hplace, hmanifest, describes_of_definitionAt hproper hmanifest hread⟩

/-- A manifest file below a search directory is discovered, where anything is. -/
theorem HasManifest.discovered (hproper : fs.Proper)
    (hmanifest : w.HasManifest fs search names content)
    (h : w.discoverIn fs search = .ok defs) :
    ∃ d, w.Discovered fs search d ∧ d.manifestPath = w.manifestPath search names ∧
      w.Describes search names content d := by
  obtain ⟨position, directory, hdirectory, hmet, hmem⟩ := discoverIn_eq_ok h
  obtain ⟨position', directory', hdirectory', hfile⟩ := hmanifest.exists_file
  cases hdirectory.symm.trans hdirectory'
  have hall : ∀ met ∈ directory.listing isSearched (w.root.join search),
      ∃ entry, met = .ok entry := by
    intro met hlisted
    obtain ⟨found, hfound⟩ := hmet met hlisted
    exact exists_entry_of_definitionMet? hfound
  have hlisted := mem_listing_of_at? hall hmanifest.searched hfile (by simp [Node.kind])
  have hentry : w.isManifest ⟨w.manifestPath search names, w.manifestName, .file⟩ = true := by
    simp [isManifest, manifestName]
  obtain ⟨found, hfound⟩ := hmet _ hlisted
  cases hread : definitionAt fs (w.root.join search) (w.manifestPath search names) with
  | error e =>
      rw [definitionMet?, Node.kind, ← manifestPath, if_pos hentry, hread] at hfound
      cases hfound
  | ok d =>
      have hd : d ∈ defs :=
        (hmem d).2 ⟨_, hlisted, definitionMet?_eq_some.2 ⟨_, rfl, hentry, hread⟩⟩
      obtain ⟨-, hpath, -⟩ := definitionAt_eq_ok hread
      exact ⟨d, ⟨defs, h, hd⟩, hpath, describes_of_definitionAt hproper hmanifest hread⟩

/-- Definitions are discovered below a search directory exactly when everything there can be
read. -/
theorem exists_discoverIn_iff (hproper : fs.Proper) :
    (∃ found, w.discoverIn fs search = .ok found) ↔ w.Readable fs search := by
  constructor
  · rintro ⟨found, h⟩
    obtain ⟨position, directory, hdirectory, hmet, -⟩ := discoverIn_eq_ok h
    have hbase : directory.Proper := hproper.of_locate hdirectory
    refine ⟨?_, ?_, ?_⟩
    · by_contra hno
      simp [discoverIn, hno] at h
    · intro position' directory' names entries hdirectory' hsearched hat
      cases hdirectory.symm.trans hdirectory'
      refine (listing_ok_iff hbase).1 ?_ names entries hsearched hat
      intro met hlisted
      obtain ⟨value, hvalue⟩ := hmet met hlisted
      exact exists_entry_of_definitionMet? hvalue
    · intro names content hmanifest
      obtain ⟨d, hd, hpath, -⟩ := hmanifest.discovered hproper h
      exact ⟨d.manifest, hpath ▸ hd.load⟩
  · rintro ⟨hdirectory, hshort, hloads⟩
    obtain ⟨position, entries, hlocate⟩ := FileSystem.isDirectory_iff.1 hdirectory
    have hbase : (Node.directory entries).Proper := hproper.of_locate hlocate
    have hall := (listing_ok_iff hbase).2 fun names others hsearched hat =>
      hshort position _ names others hlocate hsearched hat
    have hmet : ∀ met ∈ fs.walkBelow isSearched (w.root.join search),
        ∃ value, w.definitionMet? fs (w.root.join search) met = .ok value := by
      intro met hmet
      simp only [FileSystem.walkBelow, hlocate] at hmet
      obtain ⟨entry, rfl⟩ := hall met hmet
      by_cases hentry : w.isManifest entry = true
      · obtain ⟨names, content, hpath, hmanifest⟩ :=
          hasManifest_of_met hproper hlocate hmet hentry
        obtain ⟨manifest, hload⟩ := hloads names content hmanifest
        rw [← hpath] at hload
        obtain ⟨d, hread⟩ : ∃ d, definitionAt fs (w.root.join search) entry.path = .ok d :=
          exists_definitionAt hload
        exact ⟨some d, definitionMet?_eq_some.2 ⟨entry, rfl, hentry, hread⟩⟩
      · exact ⟨none, by simp [definitionMet?, hentry]⟩
    obtain ⟨found, hfound⟩ := exists_mapM_eq_ok hmet
    refine ⟨found.filterMap id, ?_⟩
    simp [discoverIn, hdirectory, hfound, bind, Except.bind, pure, Except.pure]

/-- Definitions that are discovered at paths that are the same are the same. -/
theorem Discovered.same {search' : Path} {e : Definition} (hproper : fs.Proper)
    (hd : w.Discovered fs search d) (he : w.Discovered fs search' e)
    (hpath : d.manifestPath.same e.manifestPath = true) : d.Same e := by
  obtain ⟨names, content, -, hmanifest, hdescribes⟩ := hd.describes hproper
  obtain ⟨names', content', -, hmanifest', hdescribes'⟩ := he.describes hproper
  -- The roots are the paths without the name of the manifest file.
  have hcomponents := Path.same_iff.1 hpath
  rw [hdescribes.components_path hproper hmanifest,
    hdescribes'.components_path hproper hmanifest'] at hcomponents
  have hroot : d.root.same e.root = true := by
    rw [Path.same_iff]
    exact List.append_cancel_right hcomponents
  exact ⟨hpath, hroot, manifest_eq_of_same hpath hd.load he.load⟩

/-! ## Each path once -/

/-- Each definition stands before the next in the order of their manifest paths. -/
def Increasing (defs : List Definition) : Prop :=
  defs.Pairwise fun d e => d.manifestPath.sortKey < e.manifestPath.sortKey

variable {kept : Definition}

/-- What is kept on the way was there before. -/
theorem mem_of_mem_go (h : d ∈ dropRepeats.go kept defs) : d ∈ defs := by
  induction defs generalizing kept with
  | nil => cases h
  | cons next rest ih =>
      rw [dropRepeats.go] at h
      by_cases hsame : next.manifestPath.same kept.manifestPath = true
      · rw [if_pos hsame] at h
        exact List.mem_cons_of_mem _ (ih h)
      · rw [if_neg hsame] at h
        rcases List.mem_cons.1 h with rfl | h
        · exact List.mem_cons_self
        · exact List.mem_cons_of_mem _ (ih h)

/-- No definition is dropped but those of a path that is kept. -/
theorem exists_same_of_mem_go (h : d ∈ kept :: defs) :
    ∃ e ∈ kept :: dropRepeats.go kept defs, e.manifestPath.same d.manifestPath = true := by
  induction defs generalizing kept with
  | nil =>
      rw [List.mem_singleton] at h
      subst h
      exact ⟨d, List.mem_cons_self, Path.same_refl _⟩
  | cons next rest ih =>
      rw [dropRepeats.go]
      rcases List.mem_cons.1 h with rfl | h
      · exact ⟨d, List.mem_cons_self, Path.same_refl _⟩
      · by_cases hsame : next.manifestPath.same kept.manifestPath = true
        · rw [if_pos hsame]
          rcases List.mem_cons.1 h with rfl | h
          · refine ⟨kept, List.mem_cons_self, ?_⟩
            rw [Path.same_iff] at hsame ⊢
            exact hsame.symm
          · exact ih (List.mem_cons_of_mem _ h)
        · rw [if_neg hsame]
          obtain ⟨e, he, hpath⟩ := ih h
          exact ⟨e, List.mem_cons_of_mem _ he, hpath⟩

/-- Of definitions in the order of their paths, those that are kept have each path once. -/
theorem increasing_go
    (h : (kept :: defs).Pairwise fun d e => d.manifestPath.sortKey ≤ e.manifestPath.sortKey) :
    Increasing (kept :: dropRepeats.go kept defs) := by
  induction defs generalizing kept with
  | nil => simp [dropRepeats.go, Increasing]
  | cons next rest ih =>
      obtain ⟨hkept, hrest⟩ := List.pairwise_cons.1 h
      have hle := hkept next List.mem_cons_self
      rw [dropRepeats.go]
      by_cases hsame : next.manifestPath.same kept.manifestPath = true
      · rw [if_pos hsame]
        apply ih
        exact List.pairwise_cons.2 ⟨fun e he => hkept e (List.mem_cons_of_mem _ he),
          (List.pairwise_cons.1 hrest).2⟩
      · rw [if_neg hsame]
        have hnext : Increasing (next :: dropRepeats.go next rest) := ih hrest
        have hlt : kept.manifestPath.sortKey < next.manifestPath.sortKey := by
          apply Std.lt_of_le_of_ne hle
          intro heq
          rw [Path.same_iff_sortKey] at hsame
          exact hsame heq.symm
        refine List.pairwise_cons.2 ⟨?_, hnext⟩
        intro e he
        rcases List.mem_cons.1 he with rfl | he
        · exact hlt
        · exact List.lt_trans hlt ((List.pairwise_cons.1 hnext).1 e he)

/-- What is left without repeats was there before. -/
theorem mem_of_mem_dropRepeats (h : d ∈ dropRepeats defs) : d ∈ defs := by
  cases defs with
  | nil => cases h
  | cons first rest =>
      rcases List.mem_cons.1 h with rfl | h
      · exact List.mem_cons_self
      · exact List.mem_cons_of_mem _ (mem_of_mem_go h)

/-- Of each definition, one with the same path is left. -/
theorem exists_same_of_mem (h : d ∈ defs) :
    ∃ e ∈ dropRepeats defs, e.manifestPath.same d.manifestPath = true := by
  cases defs with
  | nil => cases h
  | cons first rest => exact exists_same_of_mem_go h

/-- Definitions in order increase once repeats are dropped. -/
theorem increasing_dropRepeats
    (h : defs.Pairwise fun d e => d.manifestPath.sortKey ≤ e.manifestPath.sortKey) :
    Increasing (dropRepeats defs) := by
  cases defs with
  | nil => exact List.Pairwise.nil
  | cons first rest => exact increasing_go h

/-- Definitions with the same paths, each once and in their order, agree one by one. -/
theorem forall₂_same_of_increasing {others : List Definition} (h : Increasing defs)
    (h' : Increasing others)
    (hsame : ∀ d ∈ defs, ∀ e ∈ others, d.manifestPath.same e.manifestPath = true → d.Same e)
    (hleft : ∀ d ∈ defs, ∃ e ∈ others, e.manifestPath.same d.manifestPath = true)
    (hright : ∀ e ∈ others, ∃ d ∈ defs, d.manifestPath.same e.manifestPath = true) :
    List.Forall₂ Definition.Same defs others := by
  -- An increasing list is determined by its members, here by the places of the paths.
  have hkeys : defs.map (·.manifestPath.sortKey) = others.map (·.manifestPath.sortKey) := by
    apply List.Pairwise.eq_of_mem_iff (List.pairwise_map.2 h) (List.pairwise_map.2 h')
    intro key
    simp only [List.mem_map]
    constructor
    · rintro ⟨d, hd, rfl⟩
      obtain ⟨e, he, hpath⟩ := hleft d hd
      exact ⟨e, he, Path.same_iff_sortKey.1 hpath⟩
    · rintro ⟨e, he, rfl⟩
      obtain ⟨d, hd, hpath⟩ := hright e he
      exact ⟨d, hd, Path.same_iff_sortKey.1 hpath⟩
  rw [← List.forall₂_eq_eq_eq, List.forall₂_map_left_iff, List.forall₂_map_right_iff,
    List.forall₂_iff_zip] at hkeys
  obtain ⟨hlength, hpaths⟩ := hkeys
  refine List.forall₂_iff_zip.2 ⟨hlength, ?_⟩
  intro d e hzip
  obtain ⟨hd, he⟩ := List.of_mem_zip hzip
  exact hsame d hd e he (Path.same_iff_sortKey.2 (hpaths hzip))

/-- Sorting puts definitions in the order of their manifest paths. -/
theorem ordered_mergeSort (found : List Definition) :
    (found.mergeSort fun a b => a.manifestPath.le b.manifestPath).Pairwise fun d e =>
      d.manifestPath.sortKey ≤ e.manifestPath.sortKey := by
  have htrans : ∀ a b c : Definition, a.manifestPath.le b.manifestPath = true →
      b.manifestPath.le c.manifestPath = true → a.manifestPath.le c.manifestPath = true := by
    intro a b c hab hbc
    rw [Path.le_iff] at hab hbc ⊢
    exact List.le_trans hab hbc
  have htotal : ∀ a b : Definition,
      (a.manifestPath.le b.manifestPath || b.manifestPath.le a.manifestPath) = true := by
    intro a b
    rw [Bool.or_eq_true, Path.le_iff, Path.le_iff]
    exact List.le_total _ _
  have hsorted := List.pairwise_mergeSort htrans htotal found
  exact hsorted.imp fun hle => Path.le_iff.1 hle

/-! ## All search directories -/

/-- Discovery succeeds when it does below each search directory. -/
theorem exists_discover_iff :
    (∃ defs, w.discover fs = .ok defs) ↔
      ∀ search ∈ w.settings.projects.search, ∃ found, w.discoverIn fs search = .ok found := by
  unfold discover
  constructor
  · rintro ⟨defs, h⟩ search hsearch
    cases hfound : w.settings.projects.search.mapM (w.discoverIn fs) with
    | error e => simp [hfound, bind, Except.bind] at h
    | ok found =>
        obtain ⟨below, -, hbelow⟩ := exists_mem_of_mapM hfound hsearch
        exact ⟨below, hbelow⟩
  · intro h
    obtain ⟨found, hfound⟩ := exists_mapM_eq_ok h
    rw [hfound]
    exact ⟨_, rfl⟩

/-- What is discovered in a workspace: what is discovered below its search directories, in the
order of the manifest paths and each path once. -/
theorem discover_eq_ok (h : w.discover fs = .ok defs) :
    Increasing defs ∧
      (∀ d ∈ defs, ∃ search ∈ w.settings.projects.search, w.Discovered fs search d) ∧
      ∀ search ∈ w.settings.projects.search, ∀ d, w.Discovered fs search d →
        ∃ e ∈ defs, e.manifestPath.same d.manifestPath = true := by
  unfold discover at h
  cases hfound : w.settings.projects.search.mapM (w.discoverIn fs) with
  | error e => simp [hfound, bind, Except.bind] at h
  | ok found =>
      simp only [hfound, bind, Except.bind, pure, Except.pure] at h
      cases h
      refine ⟨?_, ?_, ?_⟩
      · exact increasing_dropRepeats (ordered_mergeSort _)
      · intro d hd
        have hmem : d ∈ found.flatten := List.mem_mergeSort.1 (mem_of_mem_dropRepeats hd)
        obtain ⟨below, hbelow, hd⟩ := List.mem_flatten.1 hmem
        obtain ⟨search, hsearch, hdiscovered⟩ := exists_of_mem_mapM hfound hbelow
        exact ⟨search, hsearch, below, hdiscovered, hd⟩
      · rintro search hsearch d ⟨found', hfound', hd⟩
        obtain ⟨below, hbelow, hdiscovered⟩ := exists_mem_of_mapM hfound hsearch
        cases hfound'.symm.trans hdiscovered
        apply exists_same_of_mem
        exact List.mem_mergeSort.2 (List.mem_flatten.2 ⟨_, hbelow, hd⟩)

/-- What a definition at the same path has is what the discovered one has. -/
theorem Describes.of_same {e : Definition} (h : w.Describes search names content d)
    (hsame : e.Same d) (hparent : e.manifestPath.parent? = some e.root) :
    w.Describes search names content e := by
  have hpath := Path.same_iff.1 hsame.path
  have hroot := Path.same_iff.1 hsame.root
  refine ⟨?_, hparent, ?_, ?_⟩
  · rw [Path.same_iff, hpath]
    exact Path.same_iff.1 h.path
  · rw [Path.same_iff, hroot]
    exact Path.same_iff.1 h.root
  · rw [hsame.manifest]
    exact h.manifest

/-- A manifest file below a search directory is discovered in a workspace. -/
theorem HasManifest.mem_discover (hproper : fs.Proper)
    (hmanifest : w.HasManifest fs search names content)
    (hsearch : search ∈ w.settings.projects.search) (h : w.discover fs = .ok defs) :
    ∃ d ∈ defs, w.Describes search names content d := by
  obtain ⟨found, hfound⟩ := exists_discover_iff.1 ⟨defs, h⟩ search hsearch
  obtain ⟨d, hd, -, hdescribes⟩ := hmanifest.discovered hproper hfound
  obtain ⟨-, hfrom, hkeeps⟩ := discover_eq_ok h
  obtain ⟨e, he, hpath⟩ := hkeeps search hsearch d hd
  obtain ⟨search', -, hdiscovered⟩ := hfrom e he
  obtain ⟨names', content', -, hmanifest', hdescribes'⟩ := hdiscovered.describes hproper
  exact ⟨e, he, hdescribes.of_same (hdiscovered.same hproper hd hpath) hdescribes'.parent⟩

/-- Whether and what is discovered does not depend on the order of the search directories and
on their repetitions. -/
theorem discover_withSearch (hproper : fs.Proper) {searches : List Path}
    (hsearches : ∀ search, search ∈ searches ↔ search ∈ w.settings.projects.search) :
    ((∃ defs, w.discover fs = .ok defs) ↔
      ∃ defs, (w.withSearch searches).discover fs = .ok defs) ∧
    ∀ defs others, w.discover fs = .ok defs → (w.withSearch searches).discover fs = .ok others →
      List.Forall₂ Definition.Same defs others := by
  constructor
  · rw [exists_discover_iff, exists_discover_iff]
    constructor
    · intro h search hsearch
      exact h search ((hsearches search).1 hsearch)
    · intro h search hsearch
      exact h search ((hsearches search).2 hsearch)
  · intro defs others h h'
    obtain ⟨hinc, hfrom, hkeeps⟩ := discover_eq_ok h
    obtain ⟨hinc', hfrom', hkeeps'⟩ := discover_eq_ok h'
    apply forall₂_same_of_increasing hinc hinc'
    · intro d hd e he hpath
      obtain ⟨search, -, hdiscovered⟩ := hfrom d hd
      obtain ⟨search', -, hdiscovered'⟩ := hfrom' e he
      exact hdiscovered.same hproper hdiscovered' hpath
    · intro d hd
      obtain ⟨search, hsearch, hdiscovered⟩ := hfrom d hd
      exact hkeeps' search ((hsearches search).2 hsearch) d hdiscovered
    · intro e he
      obtain ⟨search, hsearch, hdiscovered⟩ := hfrom' e he
      exact hkeeps search ((hsearches search).1 hsearch) e hdiscovered

/-- The definitions are exactly those of the manifest files below the search directories, in the
order of their paths and each path once. -/
structure Lists (w : Workspace) (fs : FileSystem) (defs : List Definition) : Prop where
  /-- Every definition is that of a manifest file. -/
  described : ∀ d ∈ defs, ∃ search ∈ w.settings.projects.search, ∃ names content,
    d.manifestPath = w.manifestPath search names ∧
      w.HasManifest fs search names content ∧ w.Describes search names content d
  /-- Every manifest file has its definition. -/
  complete : ∀ search ∈ w.settings.projects.search, ∀ names content,
    w.HasManifest fs search names content → ∃ d ∈ defs, w.Describes search names content d
  increasing : Increasing defs

/-- Discovery is exact.  It succeeds when everything below the search directories can be read,
and then lists the definitions of the manifest files there; and for search directories with the
same members, in whatever order and with whatever repetitions, it succeeds alike and lists the
same definitions. -/
theorem discover_exact (w : Workspace) (fs : FileSystem) (hproper : fs.Proper) :
    ((∃ defs, w.discover fs = .ok defs) ↔
      ∀ search ∈ w.settings.projects.search, w.Readable fs search) ∧
    (∀ defs, w.discover fs = .ok defs → w.Lists fs defs) ∧
      ∀ searches : List Path,
        (∀ search, search ∈ searches ↔ search ∈ w.settings.projects.search) →
          ((∃ defs, w.discover fs = .ok defs) ↔
            ∃ defs, (w.withSearch searches).discover fs = .ok defs) ∧
          ∀ defs others, w.discover fs = .ok defs →
            (w.withSearch searches).discover fs = .ok others →
              List.Forall₂ Definition.Same defs others := by
  refine ⟨?_, ?_, ?_⟩
  · rw [exists_discover_iff]
    simp only [exists_discoverIn_iff hproper]
  · intro defs h
    obtain ⟨hincreasing, hfrom, -⟩ := discover_eq_ok h
    refine ⟨?_, ?_, hincreasing⟩
    · intro d hd
      obtain ⟨search, hsearch, hdiscovered⟩ := hfrom d hd
      exact ⟨search, hsearch, hdiscovered.describes hproper⟩
    · intro search hsearch names content hmanifest
      exact hmanifest.mem_discover hproper hsearch h
  · intro searches hsearches
    exact discover_withSearch hproper hsearches

end Workspace

namespace Sample

open Text

/-- The outputs of a project, with a broken manifest in them. -/
def outputFiles : Entries :=
  [(utf8 "manifest.json", .file [])]

/-- The files of a project. -/
def projectFiles : Entries :=
  [(utf8 "manifest.json", .file (utf8 "\x7b\x7d")), (utf8 "obj", .directory outputFiles)]

/-- A project in the root directory, and a link to it. -/
def nestedFiles : FileSystem where
  root := [(utf8 "again", .link (Path.ofString "kernel")), (utf8 "kernel", .directory projectFiles)]

/-- The sample files are a proper tree. -/
theorem proper_nestedFiles : nestedFiles.Proper := by
  have houtputs : (Node.directory outputFiles).Proper := by
    apply Node.proper_directory (by decide)
    simp [outputFiles, Node.proper_file]
  have hproject : (Node.directory projectFiles).Proper := by
    apply Node.proper_directory (by decide)
    simp [projectFiles, Node.proper_file, houtputs]
  apply Node.proper_directory (by decide)
  simp [nestedFiles, Node.proper_link, hproject]

/-- Search directories that lie in each other, one of them named twice. -/
def nestedWorkspace : Workspace where
  settings := { projects := { search := ["kernel", ".", "kernel"].map Path.ofString } }
  root := Path.ofString "/"
  configFile := none

/-- The project is found once, under the path of the search directory that is named first. -/
theorem nested_discovered :
    nestedFiles.Proper ∧
      ∃ defs others, nestedWorkspace.discover nestedFiles = .ok defs ∧
        (nestedWorkspace.withSearch ([".", "kernel"].map Path.ofString)).discover nestedFiles =
          .ok others ∧
        defs.map (·.manifestPath) = [Path.ofString "/kernel/manifest.json"] ∧
        others.map (·.manifestPath) = [Path.ofString "/./kernel/manifest.json"] ∧
        nestedWorkspace.Lists nestedFiles defs ∧ List.Forall₂ Definition.Same defs others := by
  obtain ⟨-, hlists, hsearches⟩ :=
    Workspace.discover_exact nestedWorkspace nestedFiles proper_nestedFiles
  have hdefs : nestedWorkspace.discover nestedFiles = .ok [{
      root := Path.ofString "/kernel"
      manifestPath := Path.ofString "/kernel/manifest.json"
      manifest := {} }] := by cbv
  have hothers : (nestedWorkspace.withSearch ([".", "kernel"].map Path.ofString)).discover
      nestedFiles = .ok [{
        root := Path.ofString "/./kernel"
        manifestPath := Path.ofString "/./kernel/manifest.json"
        manifest := {} }] := by cbv
  have hmembers : ∀ search, search ∈ [".", "kernel"].map Path.ofString ↔
      search ∈ nestedWorkspace.settings.projects.search := by
    simp [nestedWorkspace, or_comm]
  obtain ⟨-, hsame⟩ := hsearches _ hmembers
  exact ⟨proper_nestedFiles, _, _, hdefs, hothers, rfl, rfl, hlists _ hdefs,
    hsame _ _ hdefs hothers⟩

end Sample

end NativeBuild
