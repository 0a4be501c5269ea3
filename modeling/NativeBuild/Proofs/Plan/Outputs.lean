import Mathlib
import NativeBuild.Proofs.Plan.Objects
import NativeBuild.Proofs.Project.Layout

/-!
# Where outputs lie

The object of every unit lies below the object directory of its project.  The output of a project
and the disassembly of it are named after the id, which may be any text: where it leads down from
the directory of outputs they lie below it, and where it steps up or starts at the root they do
not.

Main definitions:

- `Project.Climbs`: an id that steps up before its last slash.
- `Project.Confines`: a path below one of the two directories that a project is built in.
- `Project.HasOutput`: what a project produces.

Main results:

- Theorem `strictlyBelow_object`: objects lie below the object directory.
- Theorem `Project.HasOutput.confined_iff`: when what a project produces lies below one of its
  directories.
- Theorem `Project.HasOutput.eq_of_rooted`: where it lies when the id starts at the root.
-/

namespace NativeBuild

open Text

/-! ## Objects -/

variable {fs : FileSystem} {p : Project} {sources : List Path} {unit : CompilationUnit}

/-- The object of each unit lies below the object directory. -/
theorem strictlyBelow_object (hproper : fs.Proper)
    (hsources : discoverSources fs p.sourceDir = .ok sources) (hunit : unit ∈ p.units sources) :
    unit.object.StrictlyBelow p.objDir := by
  have hbelow : ∀ names name, (∀ n ∈ names ++ [name], FileName.Proper n) →
      (p.objectOf (p.sourceDir.below (names ++ [name]))).StrictlyBelow p.objDir := by
    intro names name hnames
    rw [p.objectOf_below hnames]
    exact p.objDir.strictlyBelow_below (Project.proper_object hnames) (by simp)
  have hobject : unit.object ∈ (p.units sources).map (·.object) := List.mem_map_of_mem hunit
  rw [objects_units hproper hsources] at hobject
  rcases List.mem_cons.1 hobject with heq | hobject
  · rw [heq]
    exact hbelow [] Project.assetName (by decide)
  · obtain ⟨source, hsource, heq⟩ := List.mem_map.1 hobject
    obtain ⟨names, name, hfound, rfl⟩ := (mem_sources_iff hproper hsources).1 hsource
    rw [← heq]
    exact hbelow names name (hfound.proper hproper)

/-! ## Outputs -/

namespace Project

/-- The id steps up before its last slash. -/
def Climbs (p : Project) : Prop :=
  [dot, dot] ∈ (Path.pieces (utf8 p.id)).dropLast

/-- The path lies below one of the two directories that the project is built in. -/
def Confines (p : Project) (path : Path) : Prop :=
  path.StrictlyBelow p.objDir ∨ path.StrictlyBelow p.binDir

/-- The path is that of the output of a project, or of the disassembly of it. -/
def HasOutput (p : Project) (path : Path) : Prop :=
  p.output? = some path ∨ p.disassembly? = some path

variable {path : Path}

/-- The extensions of outputs name something and have no slashes. -/
theorem suffix_of_extension? {kind : ProjectKind} {extension : String}
    (h : kind.extension? = some extension) :
    slash ∉ utf8 ("." ++ extension) ∧ ∃ b ∈ utf8 ("." ++ extension), b ≠ dot := by
  cases kind <;> cases h <;> decide

/-- What a project produces is named after its id, with a suffix that names something. -/
theorem HasOutput.exists_suffix (h : p.HasOutput path) :
    ∃ suffix, slash ∉ suffix ∧ (∃ b ∈ suffix, b ≠ dot) ∧
      path = p.binDir.join ⟨utf8 p.id ++ suffix⟩ := by
  have hnamed : ∀ output, p.output? = some output → ∃ suffix, slash ∉ suffix ∧
      (∃ b ∈ suffix, b ≠ dot) ∧ output = p.binDir.join ⟨utf8 p.id ++ suffix⟩ := by
    intro output houtput
    obtain ⟨extension, hextension, rfl⟩ := Option.map_eq_some_iff.1 houtput
    obtain ⟨hslash, hnames⟩ := suffix_of_extension? hextension
    refine ⟨_, hslash, hnames, ?_⟩
    rw [Path.joinText, Path.ofString, String.append_assoc, utf8_append]
  rcases h with houtput | hlisting
  · exact hnamed path houtput
  · obtain ⟨output, houtput, rfl⟩ := Option.map_eq_some_iff.1 hlisting
    obtain ⟨suffix, hslash, hnames, rfl⟩ := hnamed output houtput
    refine ⟨suffix ++ utf8 ".asm", ?_, ?_, ?_⟩
    · rw [List.mem_append, not_or]
      exact ⟨hslash, by decide⟩
    · obtain ⟨b, hb, hdot⟩ := hnames
      exact ⟨b, List.mem_append_left _ hb, hdot⟩
    · have hne : utf8 p.id ++ suffix ≠ [] := by
        obtain ⟨b, hb, -⟩ := hnames
        exact List.append_ne_nil_of_right_ne_nil _ (List.ne_nil_of_mem hb)
      rw [← List.append_assoc, p.binDir.join_append hne (utf8 ".asm")]
      rfl

/-- What a project produces is never below the directory of objects, when its id is not rooted. -/
theorem HasOutput.not_strictlyBelow_objDir (h : p.HasOutput path)
    (hid : (Path.ofString p.id).isRooted = false) : ¬ path.StrictlyBelow p.objDir := by
  obtain ⟨suffix, hslash, -, rfl⟩ := h.exists_suffix
  have hdir : p.binDir.Unslashed := p.root.unslashed_child (by decide)
  rintro ⟨names, -, hcomponents⟩
  rw [Path.components_join hdir.1 (Path.isRooted_append_suffix hid hslash), components_binDir,
    components_objDir] at hcomponents
  obtain ⟨hsame, -⟩ := List.append_inj hcomponents (by simp)
  exact absurd (List.append_inj' hsame rfl).2 (by decide)

/-- What a project produces lies below one of its two directories, when its id is not rooted and
does not climb. -/
theorem HasOutput.confined_iff (h : p.HasOutput path)
    (hid : (Path.ofString p.id).isRooted = false) : p.Confines path ↔ ¬ p.Climbs := by
  obtain ⟨suffix, hslash, hnames, hpath⟩ := h.exists_suffix
  have hdir : p.binDir.Unslashed := p.root.unslashed_child (by decide)
  have hbelow := Path.join_strictlyBelow_iff hdir hid hslash hnames
  rw [← hpath] at hbelow
  rw [Confines, or_iff_right (h.not_strictlyBelow_objDir hid), hbelow, Climbs]

/-- What a project with a rooted id produces has that id for its path, up to the suffix. -/
theorem HasOutput.eq_of_rooted (h : p.HasOutput path)
    (hid : (Path.ofString p.id).isRooted = true) : ∃ suffix, path = ⟨utf8 p.id ++ suffix⟩ := by
  obtain ⟨suffix, -, -, rfl⟩ := h.exists_suffix
  refine ⟨suffix, p.binDir.join_rooted ?_⟩
  have hne : utf8 p.id ≠ [] := by
    intro hnil
    rw [Path.ofString, hnil] at hid
    cases hid
  rw [Path.isRooted_append hne]
  exact hid

end Project

end NativeBuild
