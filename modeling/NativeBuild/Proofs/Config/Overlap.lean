import NativeBuild.Proofs.Config.Discovery
import NativeBuild.Proofs.Config.Upward
import NativeBuild.Proofs.FileSystem.Removal
import NativeBuild.Proofs.Project.Registration

/-!
# Search directories that overlap

Search directories may lie in each other, so a manifest file may be met below several of them,
under paths that are written differently.  Repeated paths are dropped by their components, and
below a root that is not empty the components of a path tell the file: a leading `.` of a search
directory counts for nothing there.  Below the empty root it counts, and a file that is met both
with and without it is listed twice.

Main definitions:

- `FileSystem.OneFile`: two paths that lead to one file.
- `Workspace.Overlap`: a manifest file that is met with a leading `.` and without.

Main results:

- Theorem `oneFile_iff`: when two manifest paths lead to one file.
- Theorem `listed_twice_iff`: when a manifest file is listed twice.
-/

namespace NativeBuild

namespace FileSystem

/-- Two paths lead to the same place. -/
def OneFile (fs : FileSystem) (p q : Path) : Prop :=
  ∃ position node node', fs.locate .target p = .ok (.present position node) ∧
    fs.locate .target q = .ok (.present position node')

/-- Two paths lead to one file in either order. -/
theorem OneFile.symm {fs : FileSystem} {p q : Path} (h : fs.OneFile p q) : fs.OneFile q p := by
  obtain ⟨position, node, node', hp, hq⟩ := h
  exact ⟨position, node', node, hq, hp⟩

end FileSystem

namespace Workspace

/-- A manifest file is met below two search directories, along the same names but for a `.` that
one of the search directories starts with. -/
def Overlap (w : Workspace) (fs : FileSystem) : Prop :=
  ∃ search ∈ w.settings.projects.search, ∃ other ∈ w.settings.projects.search,
    ∃ names names' content content', w.HasManifest fs search names content ∧
      w.HasManifest fs other names' content' ∧
      search.components ++ names.map .name = .current :: (other.components ++ names'.map .name)

variable {w : Workspace} {fs : FileSystem} {search other : Path} {names names' : List FileName}
  {p q : Path} {d e : Definition} {defs : List Definition}

/-! ## Manifest paths -/

/-- The names along which a manifest file lies below the root of the workspace. -/
def placeOf (w : Workspace) (search : Path) (names : List FileName) : List FileName :=
  search.steps ++ (names ++ [w.manifestName])

/-- Two searches come to one place exactly when their steps, with the names after them, are the
same. -/
theorem placeOf_inj :
    w.placeOf search names = w.placeOf other names' ↔
      search.steps ++ names = other.steps ++ names' := by
  simp only [placeOf, ← List.append_assoc, List.append_cancel_right_eq]

/-- A manifest path has the steps of the root, and then those to the place of the file. -/
theorem steps_manifestPath (hsearch : search.Descends)
    (hnames : ∀ name ∈ names ++ [w.manifestName], name.Proper) :
    (w.manifestPath search names).steps = w.root.steps ++ w.placeOf search names := by
  rw [manifestPath, Path.steps_below _ hnames, w.root.steps_join hsearch.relative, placeOf,
    List.append_assoc]

/-- A manifest path starts where the root does. -/
theorem start_manifestPath (hsearch : search.Descends)
    (hnames : ∀ name ∈ names ++ [w.manifestName], name.Proper) :
    fs.start (w.manifestPath search names) = fs.start w.root := by
  have hjoin : fs.start (w.root.join search) = fs.start w.root := by
    rw [FileSystem.start, FileSystem.start, w.root.isRooted_join hsearch.relative]
  rw [← hjoin]
  apply FileSystem.start_eq
  rw [manifestPath, Path.components_below _ hnames]
  cases (w.root.join search).components with
  | nil => cases names <;> simp
  | cons first rest => rfl

/-- Below a root that is not empty, the place of a manifest file decides its path. -/
theorem components_manifestPath (hroot : w.root.bytes ≠ []) (hsearch : search.Descends)
    (hnames : ∀ name ∈ names ++ [w.manifestName], name.Proper) :
    (w.manifestPath search names).components =
      w.root.components ++ (w.placeOf search names).map .name := by
  rw [manifestPath, Path.components_below _ hnames, hsearch.components_join hroot, placeOf]
  simp

/-- Seen from the empty root, a manifest path goes on from its search directory. -/
theorem components_manifestPath_of_empty (hroot : w.root.bytes = []) (hsearch : search.Descends)
    (hnames : ∀ name ∈ names ++ [w.manifestName], name.Proper) :
    (w.manifestPath search names).components =
      search.components ++ (names ++ [w.manifestName]).map .name := by
  have hjoin : w.root.join search = search := by simp [Path.join, hsearch.relative, hroot]
  rw [manifestPath, Path.components_below _ hnames, hjoin]

/-! ## Files -/

/-- A path of a manifest file, of which the place below the root is known. -/
structure PathOf (w : Workspace) (fs : FileSystem) (search : Path) (names : List FileName)
    (p : Path) : Prop where
  found : ∃ position node, fs.locate .target p = .ok (.present position node)
  same : p.same (w.manifestPath search names) = true
  descends : search.Descends
  proper : ∀ name ∈ names ++ [w.manifestName], name.Proper

/-- Where there are no links, the path of a manifest leads to its place below the root of the
workspace. -/
theorem PathOf.exists_base (hplain : fs.Plain) (h : w.PathOf fs search names p) :
    ∃ base node position leaf, fs.Leads (fs.start w.root) w.root.steps base node ∧
      fs.locate .target p = .ok (.present position leaf) ∧
      position = base ++ w.placeOf search names := by
  obtain ⟨position, leaf, hp⟩ := h.found
  have hcomponents := Path.same_iff.1 h.same
  have hsteps : p.steps = w.root.steps ++ w.placeOf search names := by
    rw [← steps_manifestPath h.descends h.proper, Path.steps_eq_filterMap, hcomponents,
      ← Path.steps_eq_filterMap]
  have hstart : fs.start p = fs.start w.root := by
    rw [← start_manifestPath h.descends h.proper]
    exact FileSystem.start_eq (by rw [hcomponents])
  have hleads := FileSystem.leads_of_steps hp
  rw [hsteps, hstart] at hleads
  obtain ⟨base, node, hbase, hrest⟩ := hleads.split
  refine ⟨base, node, position, leaf, hbase, hp, hrest.goal_eq hplain ?_ ?_⟩
  · intro name hname
    rcases List.mem_append.1 hname with hname | hname
    · simpa using (List.mem_filter.1 hname).2
    · exact (h.proper name hname).names
  · intro hup
    rcases List.mem_append.1 hup with hup | hup
    · exact h.descends.dots_not_mem (List.mem_filter.1 hup).1
    · exact (h.proper _ hup).notUp rfl

/-- Two manifest paths lead to one file when the files have one place below the root. -/
theorem oneFile_iff (hplain : fs.Plain) (hp : w.PathOf fs search names p)
    (hq : w.PathOf fs other names' q) :
    fs.OneFile p q ↔ search.steps ++ names = other.steps ++ names' := by
  obtain ⟨base, node, position, leaf, hbase, hfound, rfl⟩ := hp.exists_base hplain
  obtain ⟨base', node', position', leaf', hbase', hfound', rfl⟩ := hq.exists_base hplain
  obtain ⟨rfl, -⟩ := hbase.unique hbase'
  rw [← placeOf_inj (w := w)]
  constructor
  · rintro ⟨position, node, node', hp, hq⟩
    cases hfound.symm.trans hp
    have hplace := hfound'.symm.trans hq
    simp only [Except.ok.injEq, Location.present.injEq, List.append_cancel_left_eq] at hplace
    exact hplace.1.symm
  · intro hplace
    rw [← hplace] at hfound'
    exact ⟨_, leaf, leaf', hfound, hfound'⟩

/-- Below a root that is not empty, a file has one path. -/
theorem PathOf.same_of_oneFile (hplain : fs.Plain) (hroot : w.root.bytes ≠ [])
    (hp : w.PathOf fs search names p) (hq : w.PathOf fs other names' q) (h : fs.OneFile p q) :
    p.same q = true := by
  have hplace := (placeOf_inj (w := w)).2 ((oneFile_iff hplain hp hq).1 h)
  rw [Path.same_iff, Path.same_iff.1 hp.same, Path.same_iff.1 hq.same,
    components_manifestPath hroot hp.descends hp.proper,
    components_manifestPath hroot hq.descends hq.proper, hplace]

/-- Seen from the empty root, paths of one file are the same, unless one of the search
directories starts with a `.` and the other one does not. -/
theorem PathOf.same_or_dot (hplain : fs.Plain) (hroot : w.root.bytes = [])
    (hp : w.PathOf fs search names p) (hq : w.PathOf fs other names' q) (h : fs.OneFile p q) :
    p.same q = true ∨
      search.components ++ names.map .name =
        .current :: (other.components ++ names'.map .name) ∨
      other.components ++ names'.map .name =
        .current :: (search.components ++ names.map .name) := by
  have hplace := (oneFile_iff hplain hp hq).1 h
  have hmap : search.steps.map Component.name ++ names.map .name =
      other.steps.map .name ++ names'.map .name := by
    rw [← List.map_append, ← List.map_append, hplace]
  have hsame : search.components ++ names.map .name = other.components ++ names'.map .name →
      p.same q = true := by
    intro hcomponents
    rw [Path.same_iff, Path.same_iff.1 hp.same, Path.same_iff.1 hq.same,
      components_manifestPath_of_empty hroot hp.descends hp.proper,
      components_manifestPath_of_empty hroot hq.descends hq.proper, List.map_append,
      List.map_append, ← List.append_assoc, ← List.append_assoc, hcomponents]
  rcases hp.descends.components_eq with hsearch | hsearch
  · rcases hq.descends.components_eq with hother | hother
    · exact .inl (hsame (by rw [hsearch, hother, hmap]))
    · exact .inr (.inr (by rw [hsearch, hother, List.cons_append, hmap]))
  · rcases hq.descends.components_eq with hother | hother
    · exact .inr (.inl (by rw [hsearch, hother, List.cons_append, hmap]))
    · exact .inl (hsame (by rw [hsearch, hother, List.cons_append, List.cons_append, hmap]))

/-- A definition has the path of its manifest file. -/
theorem Describes.pathOf {content : List UInt8} (hproper : fs.Proper)
    (h : w.Describes search names content d) (hsearch : search.Descends)
    (hmanifest : w.HasManifest fs search names content)
    (hload : Manifest.load fs d.manifestPath = .ok d.manifest) :
    w.PathOf fs search names d.manifestPath := by
  obtain ⟨position, content', hfound, -⟩ := load_eq_ok hload
  exact ⟨⟨position, _, hfound⟩, h.path, hsearch, hmanifest.proper hproper⟩

/-- What is listed is loaded from its path. -/
theorem load_of_mem_discover (h : w.discover fs = .ok defs) (hd : d ∈ defs) :
    Manifest.load fs d.manifestPath = .ok d.manifest := by
  obtain ⟨-, hfrom, -⟩ := discover_eq_ok h
  obtain ⟨search, -, hdiscovered⟩ := hfrom d hd
  exact hdiscovered.load

/-- What is listed has the path of a manifest file below a search directory. -/
theorem exists_pathOf_of_mem (hproper : fs.Proper)
    (hsearch : ∀ search ∈ w.settings.projects.search, search.Descends)
    (h : w.discover fs = .ok defs) (hd : d ∈ defs) :
    ∃ search ∈ w.settings.projects.search, ∃ names content,
      w.HasManifest fs search names content ∧ w.PathOf fs search names d.manifestPath := by
  obtain ⟨-, hfrom, -⟩ := discover_eq_ok h
  obtain ⟨search, hmem, hdiscovered⟩ := hfrom d hd
  obtain ⟨names, content, -, hmanifest, hdescribes⟩ := hdiscovered.describes hproper
  exact ⟨search, hmem, names, content, hmanifest,
    hdescribes.pathOf hproper (hsearch search hmem) hmanifest hdiscovered.load⟩

/-- A manifest file below a search directory has a path in the list. -/
theorem HasManifest.exists_pathOf {content : List UInt8} (hproper : fs.Proper)
    (hsearch : search.Descends) (hmem : search ∈ w.settings.projects.search)
    (h : w.discover fs = .ok defs) (hmanifest : w.HasManifest fs search names content) :
    ∃ d ∈ defs, w.PathOf fs search names d.manifestPath := by
  obtain ⟨d, hd, hdescribes⟩ := hmanifest.mem_discover hproper hmem h
  exact ⟨d, hd, hdescribes.pathOf hproper hsearch hmanifest (load_of_mem_discover h hd)⟩

/-- What one file says is the same wherever it is listed. -/
theorem manifest_eq_of_oneFile (h : fs.OneFile d.manifestPath e.manifestPath)
    (hd : Manifest.load fs d.manifestPath = .ok d.manifest)
    (he : Manifest.load fs e.manifestPath = .ok e.manifest) : d.manifest = e.manifest := by
  obtain ⟨position, node, node', hfound, hfound'⟩ := h
  obtain ⟨_, content, hlocate, hread⟩ := load_eq_ok hd
  obtain ⟨_, content', hlocate', hread'⟩ := load_eq_ok he
  cases hfound.symm.trans hlocate
  cases hfound'.symm.trans hlocate'
  have hat := (FileSystem.leads_of_steps hlocate).at?_goal
  have hat' := (FileSystem.leads_of_steps hlocate').at?_goal
  cases hat.symm.trans hat'
  rw [hread] at hread'
  exact Option.some.inj hread'

/-! ## Files listed twice -/

/-- Without a manifest file that is met with a leading `.` and without from the empty root, every
file is listed once. -/
theorem listed_once (hproper : fs.Proper) (hplain : fs.Plain)
    (hsearch : ∀ search ∈ w.settings.projects.search, search.Descends)
    (h : w.discover fs = .ok defs) (hno : ¬ (w.root.bytes = [] ∧ w.Overlap fs)) :
    defs.Pairwise fun d e => ¬ fs.OneFile d.manifestPath e.manifestPath := by
  refine (discover_eq_ok h).1.imp_of_mem ?_
  intro d e hd he hlt hfile
  have hdifferent : ¬ d.manifestPath.same e.manifestPath = true := by
    rw [Path.same_iff_sortKey]
    intro hkey
    rw [hkey] at hlt
    exact List.lt_irrefl _ hlt
  obtain ⟨search, hmem, names, content, hmanifest, hp⟩ :=
    exists_pathOf_of_mem hproper hsearch h hd
  obtain ⟨other, hmem', names', content', hmanifest', hq⟩ :=
    exists_pathOf_of_mem hproper hsearch h he
  by_cases hroot : w.root.bytes = []
  · rcases hp.same_or_dot hplain hroot hq hfile with hsame | hdot | hdot
    · exact hdifferent hsame
    · exact hno ⟨hroot, search, hmem, other, hmem', names, names', content, content', hmanifest,
        hmanifest', hdot⟩
    · exact hno ⟨hroot, other, hmem', search, hmem, names', names, content', content, hmanifest',
        hmanifest, hdot⟩
  · exact hdifferent (hp.same_of_oneFile hplain hroot hq hfile)

/-- A manifest file that is met with a leading `.` and without from the empty root is listed
under two paths. -/
theorem exists_listed_twice (hproper : fs.Proper) (hplain : fs.Plain)
    (hsearch : ∀ search ∈ w.settings.projects.search, search.Descends)
    (h : w.discover fs = .ok defs) (hroot : w.root.bytes = []) (hoverlap : w.Overlap fs) :
    ∃ d ∈ defs, ∃ e ∈ defs, d ≠ e ∧ fs.OneFile d.manifestPath e.manifestPath := by
  obtain ⟨search, hmem, other, hmem', names, names', content, content', hmanifest, hmanifest',
    hdot⟩ := hoverlap
  obtain ⟨d, hd, hp⟩ := hmanifest.exists_pathOf hproper (hsearch search hmem) hmem h
  obtain ⟨e, he, hq⟩ := hmanifest'.exists_pathOf hproper (hsearch other hmem') hmem' h
  refine ⟨d, hd, e, he, ?_, ?_⟩
  · -- The paths have different components: one has a component more.
    rintro rfl
    have hcomponents := (Path.same_iff.1 hp.same).symm.trans (Path.same_iff.1 hq.same)
    rw [components_manifestPath_of_empty hroot hp.descends hp.proper,
      components_manifestPath_of_empty hroot hq.descends hq.proper, List.map_append,
      List.map_append, ← List.append_assoc, ← List.append_assoc, hdot] at hcomponents
    simpa using congrArg List.length hcomponents
  · rw [oneFile_iff hplain hp hq]
    have hsteps := congrArg (List.filterMap Component.piece?) hdot
    rw [List.filterMap_append, List.filterMap_cons_none rfl, List.filterMap_append,
      FileSystem.filterMap_piece?_names, FileSystem.filterMap_piece?_names,
      ← Path.steps_eq_filterMap, ← Path.steps_eq_filterMap] at hsteps
    exact hsteps

/-- A rooted path is not empty. -/
theorem bytes_ne_nil_of_isRooted (h : p.isRooted = true) : p.bytes ≠ [] := by
  intro hempty
  simp [Path.isRooted, hempty] at h

/-- The root of a workspace that is found from a rooted path is not empty. -/
theorem root_ne_nil_of_load {env : Environment} {start : Path} (h : load fs env start = .ok w)
    (hstart : start.isRooted = true) : w.root.bytes ≠ [] := by
  apply bytes_ne_nil_of_isRooted
  rcases load_eq_ok_iff.1 h with ⟨file, -, hfile, -, -, hroot, -⟩ | ⟨-, -, hroot, -⟩
  · obtain ⟨-, directory, hdirectory, rfl, -⟩ := findFile_eq_some hfile
    have hrooted : (directory.joinText fileName).isRooted = true := by
      rw [Path.joinText, directory.isRooted_join (by decide),
        Path.isRooted_of_mem_ancestors hdirectory, hstart]
    rw [hroot]
    cases hparent : (directory.joinText fileName).parent? with
    | none => exact hstart
    | some root => exact (Path.isRooted_of_parent? hparent).trans hrooted
  · rw [hroot]
    exact hstart

/-- A workspace that is loaded from a rooted file has a root that is not empty. -/
theorem root_ne_nil_of_loadFile {env : Environment} {file : Path}
    (h : loadFile fs env file = .ok w) (hfile : file.isRooted = true) : w.root.bytes ≠ [] := by
  apply bytes_ne_nil_of_isRooted
  obtain ⟨_, -, -, hparent, -⟩ := loadFile_eq_ok_iff.1 h
  exact (Path.isRooted_of_parent? hparent).trans hfile

/-- Where the search directories descend and there are no symbolic links, a manifest file is listed
twice exactly when the root is empty and the file is met below two search directories, along the
same names but for a `.` that one of them starts with.  Otherwise no project is reported as a
duplicate of itself.  When a file is listed twice, the projects of the workspace are not loaded.
The root is not empty when the workspace was found from a rooted path. -/
theorem listed_twice_iff (w : Workspace) (fs : FileSystem) (hproper : fs.Proper)
    (hplain : fs.Plain) (hsearch : ∀ search ∈ w.settings.projects.search, search.Descends)
    {defs : List Definition} (h : w.discover fs = .ok defs) :
    (¬ defs.Pairwise (fun d e => ¬ fs.OneFile d.manifestPath e.manifestPath) ↔
      w.root.bytes = [] ∧ w.Overlap fs) ∧
    (¬ (w.root.bytes = [] ∧ w.Overlap fs) → ∀ id first second,
      Registry.load w fs = .error (.duplicateProject id first second) →
        ¬ fs.OneFile first second) ∧
    (w.root.bytes = [] ∧ w.Overlap fs → ∃ e, Registry.load w fs = .error e) ∧
    (∀ env start, load fs env start = .ok w → start.isRooted = true → w.root.bytes ≠ []) ∧
    ∀ env file, loadFile fs env file = .ok w → file.isRooted = true → w.root.bytes ≠ [] := by
  have hload : Registry.load w fs = Registry.ofDefinitions defs := by simp [Registry.load, h]
  refine ⟨⟨?twice, ?overlap⟩, ?once, ?refused, fun env start => root_ne_nil_of_load,
    fun env file => root_ne_nil_of_loadFile⟩
  case twice =>
    intro htwice
    by_contra hno
    exact htwice (listed_once hproper hplain hsearch h hno)
  case overlap =>
    rintro ⟨hroot, hoverlap⟩ honce
    obtain ⟨d, hd, e, he, hne, hfile⟩ :=
      exists_listed_twice hproper hplain hsearch h hroot hoverlap
    have : Std.Symm fun d e : Definition => ¬ fs.OneFile d.manifestPath e.manifestPath :=
      ⟨fun _ _ hno hfile => hno hfile.symm⟩
    exact honce.forall hd he hne hfile
  case once =>
    intro hno id first second herror
    have honce := listed_once hproper hplain hsearch h hno
    rw [hload, Registry.ofDefinitions_eq_error_iff] at herror
    obtain ⟨before, d, after, rfl, -, hfault⟩ := herror
    cases hfault with
    | repeated _ _ hfirst _ =>
        exact (List.pairwise_append.1 honce).2.2 _ hfirst _ List.mem_cons_self
  case refused =>
    rintro ⟨hroot, hoverlap⟩
    obtain ⟨d, hd, e, he, hne, hfile⟩ :=
      exists_listed_twice hproper hplain hsearch h hroot hoverlap
    rw [hload]
    cases hresult : Registry.ofDefinitions defs with
    | error e => exact ⟨e, rfl⟩
    | ok r =>
        have hdistinct := (Registry.exists_ofDefinitions_iff.1 ⟨r, hresult⟩).distinct
        have hmanifest := manifest_eq_of_oneFile hfile (load_of_mem_discover h hd)
          (load_of_mem_discover h he)
        have hid : d.id? = e.id? := by rw [Definition.id?, Definition.id?, hmanifest]
        exact absurd (List.inj_on_of_nodup_map hdistinct hd he hid) hne

end Workspace

/-! ## Samples -/

namespace Sample

open Text

/-- A project next to a workspace file that has the root directory and that of the project
searched. -/
def dottedFiles : FileSystem where
  root := [
    (utf8 "kernel", .directory [(utf8 "manifest.json",
      .file (utf8 "\x7b\"id\": \"kernel\", \"type\": \"kernel\"\x7d"))]),
    (utf8 "kiln.toml", .file (utf8 "[projects]\nsearch = [\".\", \"kernel\"]\n"))]

/-- The sample files are a proper tree. -/
theorem proper_dottedFiles : dottedFiles.Proper := by
  have hproject : ∀ content, (Node.directory [(utf8 "manifest.json", .file content)]).Proper :=
    fun content => Node.proper_singleton (by decide) (Node.proper_file content)
  apply Node.proper_directory (by decide)
  simp [dottedFiles, hproject, Node.proper_file]

/-- There are no links among the sample files. -/
theorem plain_dottedFiles : dottedFiles.Plain := by
  have hproject : ∀ content, (Node.directory [(utf8 "manifest.json", .file content)]).Plain :=
    fun content => Node.plain_directory (by simp [Node.plain_file])
  apply Node.plain_directory
  simp [dottedFiles, hproject, Node.plain_file]

/-- The workspace, found from some root. -/
def dottedWorkspace (root file : String) : Workspace where
  settings := { projects := { search := [".", "kernel"].map Path.ofString } }
  root := Path.ofString root
  configFile := some (Path.ofString file)

/-- The search directories of the sample workspace lead down from its root. -/
theorem descends_dotted (root file : String) :
    ∀ search ∈ (dottedWorkspace root file).settings.projects.search, search.Descends := by
  have hdot : (Path.ofString ".").Descends := ⟨by decide, by decide⟩
  have hkernel : (Path.ofString "kernel").Descends := ⟨by decide, by decide⟩
  simp [dottedWorkspace, hdot, hkernel]

/-- Found from the directory of the project, the workspace has the empty root, and the project is
a duplicate of itself. -/
theorem kernel_listed_twice :
    dottedFiles.Plain ∧
      Workspace.load dottedFiles {} (Path.ofString "kernel") =
        .ok (dottedWorkspace "" "kiln.toml") ∧
      (∀ search ∈ (dottedWorkspace "" "kiln.toml").settings.projects.search, search.Descends) ∧
      (∃ d e, (dottedWorkspace "" "kiln.toml").discover dottedFiles = .ok [d, e] ∧
        dottedFiles.OneFile d.manifestPath e.manifestPath) ∧
      ∃ first second, Registry.load (dottedWorkspace "" "kiln.toml") dottedFiles =
          .error (.duplicateProject "kernel" first second) ∧
        dottedFiles.OneFile first second := by
  have hload : (Workspace.load dottedFiles {} (Path.ofString "kernel")).toOption =
      some (dottedWorkspace "" "kiln.toml") := by decide +kernel
  have hdiscover : (dottedWorkspace "" "kiln.toml").discover dottedFiles = .ok [
      ⟨Path.ofString "./kernel", Path.ofString "./kernel/manifest.json",
        { id := some "kernel", kind := some "kernel" }⟩,
      ⟨Path.ofString "kernel", Path.ofString "kernel/manifest.json",
        { id := some "kernel", kind := some "kernel" }⟩] := by cbv
  have hregistry : Registry.load (dottedWorkspace "" "kiln.toml") dottedFiles =
      .error (.duplicateProject "kernel" (Path.ofString "./kernel/manifest.json")
        (Path.ofString "kernel/manifest.json")) := by cbv
  have hfile : dottedFiles.OneFile (Path.ofString "./kernel/manifest.json")
      (Path.ofString "kernel/manifest.json") :=
    ⟨[utf8 "kernel", utf8 "manifest.json"], _, _, rfl, rfl⟩
  exact ⟨plain_dottedFiles, ok_of_toOption hload, descends_dotted _ _, ⟨_, _, hdiscover, hfile⟩,
    _, _, hregistry, hfile⟩

/-- Found from the absolute path of that directory, the workspace has the project once. -/
theorem rooted_listed_once :
    Workspace.load dottedFiles {} (Path.ofString "/kernel") =
        .ok (dottedWorkspace "/" "/kiln.toml") ∧
      ∃ defs, (dottedWorkspace "/" "/kiln.toml").discover dottedFiles = .ok defs ∧
        defs.map (·.manifestPath) = [Path.ofString "/./kernel/manifest.json"] ∧
        defs.Pairwise fun d e => ¬ dottedFiles.OneFile d.manifestPath e.manifestPath := by
  have hload : (Workspace.load dottedFiles {} (Path.ofString "/kernel")).toOption =
      some (dottedWorkspace "/" "/kiln.toml") := by decide +kernel
  have hdiscover : (dottedWorkspace "/" "/kiln.toml").discover dottedFiles = .ok [
      ⟨Path.ofString "/./kernel", Path.ofString "/./kernel/manifest.json",
        { id := some "kernel", kind := some "kernel" }⟩] := by cbv
  obtain ⟨htwice, -, -, hrooted, -⟩ := Workspace.listed_twice_iff (dottedWorkspace "/" "/kiln.toml")
    dottedFiles proper_dottedFiles plain_dottedFiles (descends_dotted _ _) hdiscover
  have hroot := hrooted {} (Path.ofString "/kernel") (ok_of_toOption hload) (by decide)
  refine ⟨ok_of_toOption hload, _, hdiscover, rfl, ?_⟩
  by_contra hno
  exact hroot (htwice.1 hno).1

end Sample

end NativeBuild
