import NativeBuild.CommandLine.Commands
import NativeBuild.Proofs.FileSystem.Straight

/-!
# Looking upwards for a workspace

The workspace file is looked for in a directory and in those above it, as far as the text of the
path goes.  Where no symbolic link is on the way, what is found depends on the position of the
directory alone, up to how far the text goes: the text of a rooted path goes up to the root, and
that of any other path up to the current directory.

Main definitions:

- `FileSystem.HasWorkspaceFile`: a directory with a workspace file.
- `Workspace.Nearest`: the nearest directory with a workspace file, from a position upwards.
- `Workspace.FindsAt`: the position of the directory in which a workspace file is found.
- `Workspace.Direct`: a path without symbolic links that never steps up.

Main results:

- Theorem `findsAt_iff`: what is found from a path.
- Theorems `load_eq_ok_iff` and `loadFile_eq_ok_iff`: what is loaded from a path or a file.
- Theorem `lookup_of_relative`: a path against the absolute path of the same directory.
-/

namespace NativeBuild

/-- The directory at a position has a workspace file: the name leads to a file, behind a symbolic
link or not. -/
def FileSystem.HasWorkspaceFile (fs : FileSystem) (position : List FileName) : Prop :=
  (∃ entries, fs.at? position = some (.directory entries)) ∧
    ∃ goal content, fs.resolve .target maxLinks position [Text.utf8 Workspace.fileName] =
      .ok (.present goal (.file content))

namespace Workspace

/-- The nearest directory with a workspace file, from a position upwards. -/
structure Nearest (fs : FileSystem) (start position : List FileName) : Prop where
  above : position <+: start
  has : fs.HasWorkspaceFile position
  first : ∀ other, other <+: start → fs.HasWorkspaceFile other → other.length ≤ position.length

/-- From a path, a workspace file is found in the directory at a position. -/
def FindsAt (fs : FileSystem) (path : Path) (position : List FileName) : Prop :=
  ∃ file, findFile fs path = some file ∧
    fs.start file ++ file.steps = position ++ [Text.utf8 fileName]

variable {fs : FileSystem} {p q : Path} {position : List FileName}

/-- Two nearest directories are the same. -/
theorem Nearest.unique {start other : List FileName} (h : Nearest fs start position)
    (h' : Nearest fs start other) : position = other := by
  have hlength : position.length = other.length :=
    Nat.le_antisymm (h'.first _ h.above h.has) (h.first _ h'.above h'.has)
  exact (List.prefix_of_prefix_length_le h.above h'.above (by omega)).eq_of_length hlength

/-! ## One path -/

/-- The path goes through no symbolic link and never steps up, and it is not too long for the
workspace file to be looked for in its directory. -/
structure Direct (fs : FileSystem) (p : Path) : Prop where
  notUp : [dot, dot] ∉ p.steps
  straight : fs.Straight (fs.start p) p.steps
  short : p.bytes.length + 1 + (Text.utf8 fileName).length ≤ FileSystem.maxPath

/-- The directories above a path start where the path does. -/
theorem start_of_mem_ancestors (hq : q ∈ p.ancestors) : fs.start q = fs.start p := by
  rw [FileSystem.start, FileSystem.start, Path.isRooted_of_mem_ancestors hq]

/-- The paths of the directories above are direct as well. -/
theorem Direct.of_mem_ancestors (h : Direct fs p) (hq : q ∈ p.ancestors) : Direct fs q := by
  have hinitial := Path.steps_prefix_of_mem_ancestors hq
  refine ⟨fun hup => h.notUp (hinitial.subset hup), ?_, ?_⟩
  · rw [start_of_mem_ancestors hq]
    exact fun front hfront => h.straight front (hfront.trans hinitial)
  · have hlength := Path.length_le_of_mem_ancestors hq
    have hshort := h.short
    omega

/-- What the workspace file of a directory is found as. -/
theorem Direct.locate_eq_ok (h : Direct fs p) (hshort : fs.Short) {goal : List FileName}
    {node : Node} :
    fs.locate .target (p.joinText fileName) = .ok (.present goal node) ↔
      (∃ entries, fs.at? (fs.start p ++ p.steps) = some (.directory entries)) ∧
        fs.resolve .target FileSystem.maxLinks (fs.start p ++ p.steps) [Text.utf8 fileName] =
          .ok (.present goal node) := by
  refine FileSystem.locate_child_eq_ok hshort (by decide) (by decide) h.notUp h.straight ?_
  have hlength : (p.child (Text.utf8 fileName)).bytes.length ≤
      p.bytes.length + 1 + (Text.utf8 fileName).length := by
    rw [Path.child, Path.join, if_neg (by decide)]
    split
    · simp only [List.length_append]
      omega
    · simp only [List.length_append, List.length_cons]
      omega
  exact Nat.le_trans hlength h.short

/-- A directory has a workspace file when there is a file at the path of it. -/
theorem Direct.isFile_iff (h : Direct fs p) (hshort : fs.Short) :
    fs.isFile (p.joinText fileName) = true ↔ fs.HasWorkspaceFile (fs.start p ++ p.steps) := by
  rw [FileSystem.isFile_iff]
  simp only [h.locate_eq_ok hshort, FileSystem.HasWorkspaceFile, exists_and_left]

/-- The file that is found is that of the first directory that has one. -/
theorem findFile_eq_some {file : Path} (h : findFile fs p = some file) :
    fs.isFile file = true ∧ ∃ directory ∈ p.ancestors, file = directory.joinText fileName ∧
      ∀ other ∈ p.ancestors, fs.isFile (other.joinText fileName) = true →
        other.steps.length ≤ directory.steps.length := by
  rw [findFile, List.find?_map, Option.map_eq_some_iff] at h
  obtain ⟨directory, hfind, rfl⟩ := h
  obtain ⟨hfile, before, after, hsplit, hnone⟩ := List.find?_eq_some_iff_append.1 hfind
  refine ⟨hfile, directory, by simp [hsplit], rfl, fun other hother hisFile => ?_⟩
  have hnearest := p.pairwise_ancestors
  rw [hsplit, List.pairwise_append, List.pairwise_cons] at hnearest
  rw [hsplit, List.mem_append, List.mem_cons] at hother
  rcases hother with hother | rfl | hother
  · have hno := hnone other hother
    simp [hisFile] at hno
  · exact Nat.le_refl _
  · exact hnearest.2.1.1 other hother

/-- If a directory above a path has a workspace file, one is found. -/
theorem exists_findFile {directory : Path} (hdirectory : directory ∈ p.ancestors)
    (hfile : fs.isFile (directory.joinText fileName) = true) :
    ∃ file, findFile fs p = some file := by
  rw [← Option.isSome_iff_exists, findFile, List.find?_isSome]
  exact ⟨_, List.mem_map_of_mem hdirectory, hfile⟩

/-- The workspace file of a directory has its steps and one more. -/
theorem start_append_steps_joinText (directory : Path) :
    fs.start (directory.joinText fileName) ++ (directory.joinText fileName).steps =
      fs.start directory ++ directory.steps ++ [Text.utf8 fileName] := by
  have hrooted : (Path.ofString fileName).isRooted = false := by decide
  have hsteps : (Path.ofString fileName).steps = [Text.utf8 fileName] := by decide
  rw [Path.joinText, directory.steps_join hrooted, hsteps, FileSystem.start, FileSystem.start,
    directory.isRooted_join hrooted, List.append_assoc]

/-- A file that is found lies in a directory. -/
theorem exists_findsAt {file : Path} (h : findFile fs p = some file) :
    ∃ position, FindsAt fs p position := by
  obtain ⟨-, directory, -, rfl, -⟩ := findFile_eq_some h
  exact ⟨_, _, h, start_append_steps_joinText directory⟩

/-- Where a workspace file is found, it is in the nearest directory that has one. -/
theorem FindsAt.nearest (hshort : fs.Short) (h : Direct fs p) (hfinds : FindsAt fs p position) :
    Nearest fs (fs.start p ++ p.steps) position ∧ fs.start p <+: position := by
  obtain ⟨file, hfile, hposition⟩ := hfinds
  obtain ⟨hisFile, directory, hdirectory, rfl, hlongest⟩ := findFile_eq_some hfile
  rw [start_append_steps_joinText, start_of_mem_ancestors hdirectory] at hposition
  obtain rfl := (List.append_inj' hposition rfl).1
  have hinitial := Path.steps_prefix_of_mem_ancestors hdirectory
  refine ⟨⟨(List.prefix_append_right_inj _).2 hinitial, ?_, ?_⟩, List.prefix_append _ _⟩
  · rw [← start_of_mem_ancestors hdirectory]
    exact ((h.of_mem_ancestors hdirectory).isFile_iff hshort).1 hisFile
  · intro other hother hhas
    by_contra hlonger
    -- A longer position is that of another directory above the path.
    have hbelow : fs.start p <+: other := by
      refine List.prefix_of_prefix_length_le (List.prefix_append _ _) hother ?_
      rw [List.length_append] at hlonger
      omega
    obtain ⟨front, rfl⟩ := hbelow
    obtain ⟨nearer, hnearer, rfl⟩ :=
      Path.exists_ancestor_of_prefix ((List.prefix_append_right_inj _).1 hother)
    rw [← start_of_mem_ancestors hnearer] at hhas
    have hle := hlongest nearer hnearer
      (((h.of_mem_ancestors hnearer).isFile_iff hshort).2 hhas)
    simp only [List.length_append] at hlonger
    omega

/-- The file that is found is that behind its name in the directory. -/
theorem FindsAt.resolve_eq_ok (hshort : fs.Short) (h : Direct fs p) {file : Path}
    (hfile : findFile fs p = some file) (hfinds : FindsAt fs p position) :
    ∃ goal content, fs.locate .target file = .ok (.present goal (.file content)) ∧
      fs.resolve .target FileSystem.maxLinks position [Text.utf8 fileName] =
        .ok (.present goal (.file content)) := by
  obtain ⟨_, hfound, hposition⟩ := hfinds
  cases hfile.symm.trans hfound
  obtain ⟨hisFile, directory, hdirectory, rfl, -⟩ := findFile_eq_some hfile
  rw [start_append_steps_joinText] at hposition
  obtain rfl := (List.append_inj' hposition rfl).1
  have hdirect := h.of_mem_ancestors hdirectory
  obtain ⟨goal, content, hlocate⟩ := FileSystem.isFile_iff.1 hisFile
  exact ⟨goal, content, hlocate, ((hdirect.locate_eq_ok hshort).1 hlocate).2⟩

/-- From a path, the nearest workspace file is found, from the directory at the path up to where
the text of the path starts. -/
theorem findsAt_iff (hshort : fs.Short) (h : Direct fs p) :
    FindsAt fs p position ↔
      Nearest fs (fs.start p ++ p.steps) position ∧ fs.start p <+: position := by
  refine ⟨FindsAt.nearest hshort h, ?_⟩
  rintro ⟨hnearest, front, rfl⟩
  obtain ⟨directory, hdirectory, rfl⟩ :=
    Path.exists_ancestor_of_prefix ((List.prefix_append_right_inj _).1 hnearest.above)
  have hhas := hnearest.has
  rw [← start_of_mem_ancestors hdirectory] at hhas
  obtain ⟨file, hfile⟩ :=
    exists_findFile hdirectory (((h.of_mem_ancestors hdirectory).isFile_iff hshort).2 hhas)
  obtain ⟨-, found, hfound, rfl, -⟩ := findFile_eq_some hfile
  have hfinds : FindsAt fs p (fs.start found ++ found.steps) :=
    ⟨_, hfile, start_append_steps_joinText found⟩
  rwa [hnearest.unique (hfinds.nearest hshort h).1]

/-- Two paths from which a workspace file is found in one place lead to one file. -/
theorem locate_eq_of_findsAt (hshort : fs.Short) (hp : Direct fs p) (hq : Direct fs q)
    {file file' : Path} (hfile : findFile fs p = some file) (hfile' : findFile fs q = some file')
    (hfinds : FindsAt fs p position) (hfinds' : FindsAt fs q position) :
    ∃ goal content, fs.locate .target file = .ok (.present goal (.file content)) ∧
      fs.locate .target file' = .ok (.present goal (.file content)) := by
  obtain ⟨goal, content, hlocate, hresolve⟩ := hfinds.resolve_eq_ok hshort hp hfile
  obtain ⟨goal', content', hlocate', hresolve'⟩ := hfinds'.resolve_eq_ok hshort hq hfile'
  cases hresolve.symm.trans hresolve'
  exact ⟨goal, content, hlocate, hlocate'⟩

/-! ## What is loaded -/

/-- Paths that are found alike are loaded with the same settings. -/
theorem settings_load_eq_ok_iff {file file' : Path} {settings : Settings}
    (h : fs.locate .target file = fs.locate .target file') :
    Settings.load fs file = .ok settings ↔ Settings.load fs file' = .ok settings := by
  have hread : fs.readText file = fs.readText file' := by
    rw [FileSystem.readText, FileSystem.readText, FileSystem.readFile, FileSystem.readFile, h]
  unfold Settings.load readConfig
  rw [hread]
  cases fs.readText file' with
  | error fault => cases fault <;> simp [bind, Except.bind]
  | ok text => cases hsettings : Settings.read text <;> simp [bind, Except.bind, hsettings]

/-- A workspace is made of the file that is found, with the directory of the file for its root, or
of defaults, with the path itself for its root. -/
theorem load_eq_ok_iff {env : Environment} {w : Workspace} :
    load fs env p = .ok w ↔
      (∃ file written, findFile fs p = some file ∧ Settings.load fs file = .ok written ∧
        written.withEnvironment env = .ok w.settings ∧ w.root = file.parent?.getD p ∧
        w.configFile = some file) ∨
      findFile fs p = none ∧ Settings.withEnvironment env {} = .ok w.settings ∧ w.root = p ∧
        w.configFile = none := by
  obtain ⟨settings, root, configFile⟩ := w
  unfold load
  cases hfile : findFile fs p with
  | none =>
      cases henv : Settings.withEnvironment env {} with
      | error e => simp [bind, Except.bind]
      | ok others => simp [bind, Except.bind, pure, Except.pure, eq_comm]
  | some file =>
      cases hwritten : Settings.load fs file with
      | error e => simp [hwritten, bind, Except.bind]
      | ok written =>
          cases henv : written.withEnvironment env with
          | error e => simp [hwritten, henv, bind, Except.bind]
          | ok others => simp [hwritten, henv, bind, Except.bind, pure, Except.pure, eq_comm]

/-- The workspace of a file is made of its settings, with the directory of the file for its
root. -/
theorem loadFile_eq_ok_iff {env : Environment} {file : Path} {w : Workspace} :
    loadFile fs env file = .ok w ↔
      ∃ written, Settings.load fs file = .ok written ∧
        written.withEnvironment env = .ok w.settings ∧ file.parent? = some w.root ∧
        w.configFile = some file := by
  obtain ⟨settings, root, configFile⟩ := w
  unfold loadFile
  cases hwritten : Settings.load fs file with
  | error e => simp [bind, Except.bind]
  | ok written =>
      cases henv : written.withEnvironment env with
      | error e => simp [henv, bind, Except.bind]
      | ok others =>
          cases hparent : file.parent? with
          | none => simp [henv, bind, Except.bind]
          | some parent => simp [henv, bind, Except.bind, pure, Except.pure, eq_comm]

/-- The workspace of a start path knows the workspace file that was found from it. -/
theorem configFile_of_load {env : Environment} {w : Workspace} (h : load fs env p = .ok w) :
    w.configFile = findFile fs p := by
  rcases load_eq_ok_iff.1 h with ⟨file, -, hfile, -, -, -, hconfig⟩ | ⟨hfile, -, -, hconfig⟩
  · exact hconfig.trans hfile.symm
  · exact hconfig.trans hfile.symm

/-- The settings of a workspace are those of its file. -/
theorem exists_load_iff {env : Environment} {file : Path} {settings : Settings}
    (h : findFile fs p = some file) :
    (∃ w, load fs env p = .ok w ∧ w.settings = settings) ↔
      ∃ written, Settings.load fs file = .ok written ∧
        written.withEnvironment env = .ok settings := by
  simp only [load_eq_ok_iff, h, Option.some.injEq, reduceCtorEq, false_and, or_false]
  constructor
  · rintro ⟨w, ⟨_, written, rfl, hwritten, hsettings, -, -⟩, rfl⟩
    exact ⟨written, hwritten, hsettings⟩
  · rintro ⟨written, hwritten, hsettings⟩
    exact ⟨⟨settings, _, _⟩, ⟨file, written, rfl, hwritten, hsettings, rfl, rfl⟩, rfl⟩

/-! ## A path from the current directory -/

open CommandLine

/-- Names with a slash before each are pieces after an empty one. -/
theorem pieces_flatMap_slash {names : List FileName} (hslash : ∀ name ∈ names, slash ∉ name) :
    Path.pieces (names.flatMap (slash :: ·)) = [] :: names := by
  induction names using List.reverseRecOn with
  | nil => rfl
  | append_singleton names name ih =>
      rw [List.flatMap_append, List.flatMap_singleton, Path.pieces_append_slash,
        ih fun other hother => hslash other (by simp [hother]),
        Path.pieces_of_not_mem (hslash name (by simp))]
      rfl

/-- The absolute path of the current directory has its names for steps. -/
theorem steps_currentDirectory (hnames : ∀ name ∈ fs.cwd, name.Proper) :
    (currentDirectory fs).steps = fs.cwd := by
  unfold currentDirectory
  cases hcwd : fs.cwd with
  | nil => rfl
  | cons first rest =>
      rw [hcwd] at hnames
      rw [Path.steps, pieces_flatMap_slash fun name hname => (hnames name hname).noSlash,
        List.filter_cons_of_neg (by decide), List.filter_eq_self]
      intro name hname
      simp [(hnames name hname).names]

/-- The path of the current directory is rooted. -/
theorem isRooted_currentDirectory (fs : FileSystem) : (currentDirectory fs).isRooted = true := by
  unfold currentDirectory
  cases fs.cwd <;> rfl

/-- What is joined to a path is no longer than the result. -/
theorem length_le_join (p q : Path) : q.bytes.length ≤ (p.join q).bytes.length := by
  unfold Path.join
  split
  · exact Nat.le_refl _
  · split <;> simp only [List.length_append, List.length_cons] <;> omega

/-- A rooted path starts at the root. -/
theorem start_of_isRooted (h : p.isRooted = true) : fs.start p = [] := by
  rw [FileSystem.start, if_pos h]

/-- A relative path starts in the current directory. -/
theorem start_of_relative (h : p.isRooted = false) : fs.start p = fs.cwd := by
  rw [FileSystem.start, h]
  rfl

variable {r : Path} {entries : Entries}

/-- A path that descends from the current directory is direct. -/
theorem direct_relative (hr : r.Descends) (hstraight : fs.Straight fs.cwd r.steps)
    (hlength : ((currentDirectory fs).join r).bytes.length + 1 + (Text.utf8 fileName).length ≤
      FileSystem.maxPath) : Direct fs r := by
  refine ⟨fun hup => hr.dots_not_mem (List.mem_filter.1 hup).1, ?_, ?_⟩
  · rwa [start_of_relative hr.relative]
  · have hle := length_le_join (currentDirectory fs) r
    omega

/-- The absolute path is direct, and has the names of the current directory first. -/
theorem direct_absolute (hproper : fs.Proper) (hcwd : fs.at? fs.cwd = some (.directory entries))
    (hr : r.Descends) (hstraight : fs.Straight fs.cwd r.steps)
    (hlength : ((currentDirectory fs).join r).bytes.length + 1 + (Text.utf8 fileName).length ≤
      FileSystem.maxPath) :
    Direct fs ((currentDirectory fs).join r) ∧
      fs.start ((currentDirectory fs).join r) = [] ∧
      ((currentDirectory fs).join r).steps = fs.cwd ++ r.steps := by
  have hnames : ∀ name ∈ fs.cwd, name.Proper := Node.Proper.names hproper hcwd
  have hsteps : ((currentDirectory fs).join r).steps = fs.cwd ++ r.steps := by
    rw [Path.steps_join _ hr.relative, steps_currentDirectory hnames]
  have hstart : fs.start ((currentDirectory fs).join r) = [] :=
    start_of_isRooted ((Path.isRooted_join _ hr.relative).trans (isRooted_currentDirectory fs))
  refine ⟨⟨?notUp, ?straight, hlength⟩, hstart, hsteps⟩
  case notUp =>
    rw [hsteps]
    intro hup
    rcases List.mem_append.1 hup with hup | hup
    · exact (hnames _ hup).notUp rfl
    · exact hr.dots_not_mem (List.mem_filter.1 hup).1
  case straight =>
    rw [hsteps, hstart]
    intro front hfront target
    rw [List.nil_append]
    rcases List.prefix_or_prefix_of_prefix hfront (List.prefix_append fs.cwd r.steps) with
      ⟨back, hback⟩ | ⟨rest, rfl⟩
    · -- Up to the current directory there are directories only.
      rw [← hback] at hcwd
      obtain ⟨others, hothers⟩ := FileSystem.exists_directory_of_append hcwd
      simp [hothers]
    · exact hstraight rest ((List.prefix_append_right_inj _).1 hfront) target

/-- A path that descends from the current directory, and the absolute path of the same directory:
from the absolute path, the workspace file of the nearest directory is found that has one.  From
the other path the same file is found when it lies in the current directory or below, and it is
loaded with the same settings.  When the file lies above, none is found, and the path itself
becomes the root. -/
theorem lookup_of_relative (hproper : fs.Proper) (hshort : fs.Short)
    (hcwd : fs.at? fs.cwd = some (.directory entries)) (hr : r.Descends)
    (hstraight : fs.Straight fs.cwd r.steps)
    (hlength : ((currentDirectory fs).join r).bytes.length + 1 + (Text.utf8 fileName).length ≤
      FileSystem.maxPath) :
    (∀ position, FindsAt fs ((currentDirectory fs).join r) position ↔
      Nearest fs (fs.cwd ++ r.steps) position) ∧
    (∀ position, FindsAt fs r position ↔
      FindsAt fs ((currentDirectory fs).join r) position ∧ fs.cwd <+: position) ∧
    (∀ file file', findFile fs r = some file →
      findFile fs ((currentDirectory fs).join r) = some file' →
        (∃ goal content, fs.locate .target file = .ok (.present goal (.file content)) ∧
          fs.locate .target file' = .ok (.present goal (.file content))) ∧
        ∀ env settings, (∃ w, load fs env r = .ok w ∧ w.settings = settings) ↔
          ∃ w, load fs env ((currentDirectory fs).join r) = .ok w ∧ w.settings = settings) ∧
    (∀ env w, load fs env r = .ok w →
      w.configFile = findFile fs r ∧ (findFile fs r = none → w.root = r)) ∧
    ∀ env w, load fs env ((currentDirectory fs).join r) = .ok w →
      w.configFile = findFile fs ((currentDirectory fs).join r) := by
  have hrelative := direct_relative hr hstraight hlength
  obtain ⟨habsolute, hstart, hsteps⟩ := direct_absolute hproper hcwd hr hstraight hlength
  have hfinds : ∀ position, FindsAt fs ((currentDirectory fs).join r) position ↔
      Nearest fs (fs.cwd ++ r.steps) position := by
    intro position
    rw [findsAt_iff hshort habsolute, hstart, hsteps, List.nil_append]
    exact and_iff_left List.nil_prefix
  have hfinds' : ∀ position, FindsAt fs r position ↔
      FindsAt fs ((currentDirectory fs).join r) position ∧ fs.cwd <+: position := by
    intro position
    rw [findsAt_iff hshort hrelative, start_of_relative hr.relative, hfinds]
  refine ⟨hfinds, hfinds', fun file file' hfile hfile' => ?same, fun env w hload => ?root,
    fun env w hload => configFile_of_load hload⟩
  case same =>
    obtain ⟨position, hposition⟩ := exists_findsAt hfile
    have hlocate := locate_eq_of_findsAt hshort hrelative habsolute hfile hfile' hposition
      ((hfinds' position).1 hposition).1
    refine ⟨hlocate, fun env settings => ?_⟩
    obtain ⟨goal, content, hfirst, hsecond⟩ := hlocate
    simp only [exists_load_iff hfile, exists_load_iff hfile',
      settings_load_eq_ok_iff (hfirst.trans hsecond.symm)]
  case root =>
    refine ⟨configFile_of_load hload, fun hnone => ?_⟩
    rcases load_eq_ok_iff.1 hload with ⟨file, -, hfile, -⟩ | ⟨-, -, hroot, -⟩
    · cases hnone.symm.trans hfile
    · exact hroot

end Workspace

/-! ## Samples -/

namespace Sample

open Text CommandLine

/-- A result with a value is a success with that value. -/
theorem ok_of_toOption {ε α : Type} {result : Except ε α} {a : α} (h : result.toOption = some a) :
    result = .ok a := by
  cases result with
  | ok value =>
      cases h
      rfl
  | error e => cases h

/-- A workspace file, and next to it a directory without one. -/
def towerFiles (cwd : List String) : FileSystem where
  root := [(utf8 "ws", .directory [
    (utf8 "kiln.toml", .file []),
    (utf8 "sub", .directory [])])]
  cwd := cwd.map utf8

/-- The sample files are a proper tree. -/
theorem proper_towerFiles (cwd : List String) : (towerFiles cwd).Proper := by
  have hsub : (Node.directory []).Proper := Node.proper_directory (by decide) (by simp)
  refine Node.proper_singleton (by decide) (Node.proper_directory (by decide) ?_)
  simp [hsub, Node.proper_file]

/-- There are no links among the sample files. -/
theorem plain_towerFiles (cwd : List String) : (towerFiles cwd).Plain := by
  have hsub : (Node.directory []).Plain := Node.plain_directory (by simp)
  refine Node.plain_directory (List.forall_mem_singleton.2 (Node.plain_directory ?_))
  simp [hsub, Node.plain_file]

/-- The sample files have short names. -/
theorem short_towerFiles (cwd : List String) : (towerFiles cwd).Short := by
  have hsub : (Node.directory []).Short := Node.short_directory (by simp) (by simp)
  refine Node.short_directory (List.forall_mem_singleton.2 (by decide))
    (List.forall_mem_singleton.2 (Node.short_directory (by decide) ?_))
  simp [hsub, Node.short_file]

/-- In a directory below that of the workspace file, none is found from `.`, and the directory
becomes the root; from the absolute path the file is found. -/
theorem workspace_overlooked :
    (towerFiles ["ws", "sub"]).Plain ∧ (Path.ofString ".").Descends ∧
      Workspace.findFile (towerFiles ["ws", "sub"]) (Path.ofString ".") = none ∧
      Workspace.load (towerFiles ["ws", "sub"]) {} (Path.ofString ".") =
        .ok ⟨{}, Path.ofString ".", none⟩ ∧
      (currentDirectory (towerFiles ["ws", "sub"])).join (Path.ofString ".") =
        Path.ofString "/ws/sub/." ∧
      Workspace.load (towerFiles ["ws", "sub"]) {} (Path.ofString "/ws/sub/.") =
        .ok ⟨{}, Path.ofString "/ws", some (Path.ofString "/ws/kiln.toml")⟩ := by
  have hrelative : (Workspace.load (towerFiles ["ws", "sub"]) {} (Path.ofString ".")).toOption =
      some ⟨{}, Path.ofString ".", none⟩ := by decide +kernel
  have habsolute : (Workspace.load (towerFiles ["ws", "sub"]) {}
      (Path.ofString "/ws/sub/.")).toOption =
        some ⟨{}, Path.ofString "/ws", some (Path.ofString "/ws/kiln.toml")⟩ := by decide +kernel
  exact ⟨plain_towerFiles _, ⟨by decide, by decide⟩, by decide, ok_of_toOption hrelative,
    by decide, ok_of_toOption habsolute⟩

/-- From a path below its directory, the workspace file is found as it is from the absolute
path. -/
theorem workspace_found :
    Workspace.findFile (towerFiles ["ws"]) (Path.ofString "sub") =
        some (Path.ofString "kiln.toml") ∧
      Workspace.findFile (towerFiles ["ws"]) (Path.ofString "/ws/sub") =
        some (Path.ofString "/ws/kiln.toml") ∧
      Workspace.Nearest (towerFiles ["ws"]) (["ws", "sub"].map utf8) (["ws"].map utf8) ∧
      ∃ goal content,
        (towerFiles ["ws"]).locate .target (Path.ofString "kiln.toml") =
          .ok (.present goal (.file content)) ∧
        (towerFiles ["ws"]).locate .target (Path.ofString "/ws/kiln.toml") =
          .ok (.present goal (.file content)) := by
  have hrelative : Workspace.findFile (towerFiles ["ws"]) (Path.ofString "sub") =
      some (Path.ofString "kiln.toml") := by decide
  have habsolute : Workspace.findFile (towerFiles ["ws"]) (Path.ofString "/ws/sub") =
      some (Path.ofString "/ws/kiln.toml") := by decide
  obtain ⟨hnearest, -, hsame, -⟩ := Workspace.lookup_of_relative (proper_towerFiles ["ws"])
    (short_towerFiles ["ws"]) rfl (r := Path.ofString "sub") ⟨by decide, by decide⟩
    (fun front _ target => plain_towerFiles ["ws"] _ target) (by decide)
  refine ⟨hrelative, habsolute, ?_, (hsame _ _ hrelative habsolute).1⟩
  exact (hnearest _).1 ⟨_, habsolute, by decide⟩

end Sample

end NativeBuild
