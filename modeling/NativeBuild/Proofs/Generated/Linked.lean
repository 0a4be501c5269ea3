import NativeBuild.Proofs.Dependency.ClosedSeed
import NativeBuild.Proofs.Generated.Labels
import NativeBuild.Proofs.Plan.Objects
import NativeBuild.Proofs.Text.Decoding

/-!
# Embedded files that are linked together

The files that are linked together are those of a project and of the libraries in its link
closure.  Where no two of them are confusable, and none of them breaks the generated texts, each
label stands for one file: in a generated source, in a generated header, and in what is linked.

Main definitions:

- `Project.assets`: the embedded files of a project.
- `Project.definedLabels` and `Project.declaredLabels`: the labels of its generated texts.
- `Registry.embedded`: the assets of a project and of the libraries linked into it.

Main results:

- Theorem `Registry.assetSymbols_exact`: when symbols are unambiguous, and what then holds of the
  generated texts.
- Theorem `Sample.merged_symbols`: two ways in which a label is defined twice.
-/

namespace NativeBuild

/-! ## Files of one project -/

/-- The files directly in a directory have different names. -/
theorem nodup_filesIn {fs : FileSystem} (hproper : fs.Proper) (directory : Path) :
    (fs.filesIn directory).Nodup := by
  unfold FileSystem.filesIn
  split
  · next position entries hlocate =>
      have hentries : Entries.Proper entries := hproper.of_locate hlocate [] entries rfl
      have hsorted : ((sortByName entries).map (·.1)).Nodup :=
        ((List.mergeSort_perm _ _).map _).nodup_iff.2 hentries.distinct
      exact hsorted.sublist (List.filter_sublist.map _)
  · exact List.nodup_nil

/-- No file is embedded twice. -/
theorem nodup_listAssets {fs : FileSystem} (hproper : fs.Proper) (directory : Path) :
    (listAssets fs directory).Nodup :=
  (nodup_filesIn hproper directory).filterMap fun _ _ _ h hother => Text.decode?_inj h hother

namespace Project

/-- The embedded files of a project. -/
def assets (p : Project) (fs : FileSystem) : List Asset :=
  (listAssets fs p.assetDir).map fun file => ⟨p.id, file⟩

/-- The labels that the generated source of a project defines. -/
def definedLabels (A : LabelAlphabet) (fs : FileSystem) (p : Project) : List String :=
  A.definedLabels (p.assetSourceText (listAssets fs p.assetDir))

/-- The labels that the generated header of a project declares. -/
def declaredLabels (A : LabelAlphabet) (fs : FileSystem) (p : Project) : List String :=
  A.declaredLabels (p.assetHeaderText (listAssets fs p.assetDir))

/-- No embedded file of a project breaks the texts that are generated for it. -/
def AllLegible (A : LabelAlphabet) (fs : FileSystem) (p : Project) : Prop :=
  ∀ file ∈ listAssets fs p.assetDir, p.Legible A file

variable {A : LabelAlphabet} {fs : FileSystem} {p : Project} {label : String}

/-- The assets of a project have its id and the names of its embedded files. -/
theorem mem_assets {asset : Asset} :
    asset ∈ p.assets fs ↔ asset.project = p.id ∧ asset.file ∈ listAssets fs p.assetDir := by
  obtain ⟨project, file⟩ := asset
  simp [assets, eq_comm, and_comm]

/-- What the generated source of a project defines are the labels at its ends and those of the
project's assets. -/
theorem mem_definedLabels (hlegible : p.AllLegible A fs) :
    label ∈ p.definedLabels A fs ↔
      (label = "__assets_start" ∨ label = "__assets_end") ∨
        ∃ asset ∈ p.assets fs, label ∈ asset.labels := by
  rw [definedLabels, definedLabels_assetSourceText hlegible]
  simp only [assets, List.mem_append, List.mem_cons, List.mem_flatMap, List.mem_map,
    List.not_mem_nil, or_false]
  constructor
  · rintro ((h | ⟨file, hfile, hlabel⟩) | h)
    · exact .inl (.inl h)
    · exact .inr ⟨_, ⟨file, hfile, rfl⟩, hlabel⟩
    · exact .inl (.inr h)
  · rintro ((h | h) | ⟨_, ⟨file, hfile, rfl⟩, hlabel⟩)
    · exact .inl (.inl h)
    · exact .inr h
    · exact .inl (.inr ⟨file, hfile, hlabel⟩)

/-- What the generated header of a project declares are the labels of the project's assets. -/
theorem mem_declaredLabels (hlegible : p.AllLegible A fs) :
    label ∈ p.declaredLabels A fs ↔ ∃ asset ∈ p.assets fs, label ∈ asset.labels := by
  rw [declaredLabels, declaredLabels_assetHeaderText hlegible]
  simp [assets]

/-- Where symbols are unambiguous, a generated source defines no label twice. -/
theorem nodup_definedLabels (hproper : fs.Proper) (hlegible : p.AllLegible A fs)
    (h : Unambiguous (p.assets fs)) : (p.definedLabels A fs).Nodup := by
  have hends : ∀ label ∈ (listAssets fs p.assetDir).flatMap fun file => (Asset.mk p.id file).labels,
      label ≠ "__assets_start" ∧ label ≠ "__assets_end" := by
    intro label hlabel
    obtain ⟨file, -, hfile⟩ := List.mem_flatMap.1 hlabel
    obtain ⟨mark, rfl⟩ := Asset.mem_labels.1 hfile
    exact ⟨Asset.label_ne _ mark .start, Asset.label_ne _ mark .finish⟩
  have hlabels :
      ((listAssets fs p.assetDir).flatMap fun file => (Asset.mk p.id file).labels).Nodup := by
    refine List.nodup_flatMap.2 ⟨fun file _ => Asset.nodup_labels _, ?_⟩
    refine (nodup_listAssets hproper p.assetDir).imp_of_mem fun {file other} hfile hother hne => ?_
    intro label hlabel hsecond
    have hsame := h.eq_of_mem_labels (mem_assets.2 ⟨rfl, hfile⟩) (mem_assets.2 ⟨rfl, hother⟩)
      hlabel hsecond
    exact hne (Asset.mk.inj hsame).2
  rw [definedLabels, definedLabels_assetSourceText hlegible, List.cons_append, List.nodup_cons,
    List.nodup_append]
  refine ⟨?_, hlabels, by simp, ?_⟩
  · intro hmem
    rcases List.mem_append.1 hmem with hmem | hmem
    · exact (hends _ hmem).1 rfl
    · exact absurd hmem (by decide)
  · intro label hlabel other hother
    rw [List.mem_singleton.1 hother]
    exact (hends label hlabel).2

/-- Where symbols are unambiguous, what a generated header declares is a label of exactly one
embedded file. -/
theorem existsUnique_of_mem_declaredLabels (hlegible : p.AllLegible A fs)
    (h : Unambiguous (p.assets fs)) (hlabel : label ∈ p.declaredLabels A fs) :
    ∃! asset, asset ∈ p.assets fs ∧ label ∈ asset.labels := by
  obtain ⟨asset, hasset, hmem⟩ := (mem_declaredLabels hlegible).1 hlabel
  exact ⟨asset, ⟨hasset, hmem⟩,
    fun other ⟨hother, hsecond⟩ => h.eq_of_mem_labels hother hasset hsecond hmem⟩

end Project

/-! ## Files that are linked together -/

namespace Registry

variable {r : Registry} {p : Project} {links : List String}

/-- The projects whose embedded files are linked into a project with the given link closure: the
project itself and the libraries of the closure. -/
def linkedProjects (r : Registry) (p : Project) (links : List String) : List Project :=
  p :: (links.filterMap r.get?).filter (·.kind = .library)

/-- The assets of a project with the given link closure, and of the libraries of the closure. -/
def embedded (r : Registry) (fs : FileSystem) (p : Project) (links : List String) : List Asset :=
  (r.linkedProjects p links).flatMap fun q => q.assets fs

/-- Different projects that are linked together have different ids. -/
theorem eq_of_mem_linkedProjects (hp : r.get? p.id = some p) {q other : Project}
    (hq : q ∈ r.linkedProjects p links) (hother : other ∈ r.linkedProjects p links)
    (h : q.id = other.id) : q = other := by
  have hfound : ∀ q ∈ r.linkedProjects p links, r.get? q.id = some q := by
    intro q hq
    rcases List.mem_cons.1 hq with rfl | hq
    · exact hp
    · obtain ⟨id, -, hid⟩ := List.mem_filterMap.1 (List.mem_filter.1 hq).1
      rw [id_of_get? hid, hid]
  exact Option.some.inj ((hfound q hq).symm.trans (h ▸ hfound other hother))

/-- Symbols of what is linked into a project are exact.  Two assets have the same symbol if and
only if they are confusable.  So the symbols of all assets that are linked into a project are
unambiguous if and only if no two different ones are confusable.  Then, by any tool that reads
labels off the generated texts, and where no embedded file breaks these texts:

* a generated source defines every label of its project's assets, and no label twice;
* a generated header declares every such label, and nothing that is not a label of exactly one
  embedded file;
* no other project that is linked defines a label of an asset. -/
theorem assetSymbols_exact (r : Registry) (fs : FileSystem) (p : Project) (links : List String)
    (hproper : fs.Proper) (hp : r.get? p.id = some p) :
    (∀ a b : Asset, a.symbol = b.symbol ↔ a.Confusable b) ∧
    (Unambiguous (r.embedded fs p links) ↔
      ∀ a ∈ r.embedded fs p links, ∀ b ∈ r.embedded fs p links, a ≠ b → ¬ a.Confusable b) ∧
    (Unambiguous (r.embedded fs p links) → ∀ A : LabelAlphabet, ∀ q ∈ r.linkedProjects p links,
      q.AllLegible A fs →
        (∀ asset ∈ q.assets fs, ∀ label ∈ asset.labels, (q.definedLabels A fs).count label = 1) ∧
        (q.definedLabels A fs).Nodup ∧
        (∀ asset ∈ q.assets fs, ∀ label ∈ asset.labels, label ∈ q.declaredLabels A fs) ∧
        (∀ label ∈ q.declaredLabels A fs,
          ∃! asset, asset ∈ q.assets fs ∧ label ∈ asset.labels) ∧
        ∀ other ∈ r.linkedProjects p links, other ≠ q → other.AllLegible A fs →
          ∀ asset ∈ q.assets fs, ∀ label ∈ asset.labels, label ∉ other.definedLabels A fs) := by
  refine ⟨fun a b => Asset.symbol_eq_iff, unambiguous_iff, fun h A q hq hlegible => ?_⟩
  have hown : Unambiguous (q.assets fs) := fun a ha b hb =>
    h a (List.mem_flatMap.2 ⟨q, hq, ha⟩) b (List.mem_flatMap.2 ⟨q, hq, hb⟩)
  have hnodup := Project.nodup_definedLabels hproper hlegible hown
  refine ⟨fun asset hasset label hlabel => ?_, hnodup,
    fun asset hasset label hlabel =>
      (Project.mem_declaredLabels hlegible).2 ⟨asset, hasset, hlabel⟩,
    fun label => Project.existsUnique_of_mem_declaredLabels hlegible hown, ?_⟩
  · refine List.count_eq_one_of_mem hnodup ?_
    exact (Project.mem_definedLabels hlegible).2 (.inr ⟨asset, hasset, hlabel⟩)
  · intro other hother hne hreadable asset hasset label hlabel hdefined
    rcases (Project.mem_definedLabels hreadable).1 hdefined with hend | ⟨second, hsecond, hmem⟩
    · obtain ⟨mark, rfl⟩ := Asset.mem_labels.1 hlabel
      exact hend.elim (asset.label_ne mark .start) (asset.label_ne mark .finish)
    · obtain rfl : asset = second :=
        h.eq_of_mem_labels (List.mem_flatMap.2 ⟨q, hq, hasset⟩)
          (List.mem_flatMap.2 ⟨other, hother, hsecond⟩) hlabel hmem
      exact hne (eq_of_mem_linkedProjects hp hother hq
        ((Project.mem_assets.1 hsecond).1.symm.trans (Project.mem_assets.1 hasset).1))

end Registry

/-! ## A sample -/

namespace Sample

open Text

/-- A directory with empty files. -/
def plainDirectory (names : List String) : Node :=
  .directory (names.map fun name => (utf8 name, .file []))

/-- Projects with directories of assets. -/
def assetFiles (assets : List (String × List String)) : FileSystem where
  root := assets.map fun entry =>
    (utf8 entry.1, .directory [(utf8 "assets", plainDirectory entry.2)])

/-- A directory with empty files is proper if their names are. -/
theorem proper_plainDirectory {names : List String}
    (h : Entries.Proper (names.map fun name => (utf8 name, Node.file []))) :
    (plainDirectory names).Proper := by
  refine Node.proper_directory h fun entry hentry => ?_
  obtain ⟨name, -, rfl⟩ := List.mem_map.1 hentry
  exact Node.proper_file []

/-- Projects with assets are a proper tree if the names of both are proper. -/
theorem proper_assetFiles {assets : List (String × List String)}
    (hprojects : Entries.Proper (assetFiles assets).root)
    (hnames : ∀ entry ∈ assets,
      Entries.Proper (entry.2.map fun name => (utf8 name, Node.file []))) :
    (assetFiles assets).Proper := by
  refine Node.proper_directory hprojects fun entry hentry => ?_
  obtain ⟨project, hproject, rfl⟩ := List.mem_map.1 hentry
  exact Node.proper_singleton (by decide) (proper_plainDirectory (hnames project hproject))

/-- Assets of the editor and of a library linked into it, of which two have the same name. -/
def editorAssets : FileSystem :=
  assetFiles [("editor", ["icon.png"]), ("paint", ["icon.png", "brush.png"])]

/-- All of them have symbols of their own, and the generated sources define each label once. -/
theorem editor_symbols :
    editorAssets.Proper ∧
    ∃ editor, editorRegistry.get? "editor" = some editor ∧
    ∃ links, editorRegistry.linkClosure "editor" = .ok links ∧
      editorRegistry.embedded editorAssets editor links =
        [⟨"editor", "icon.png"⟩, ⟨"paint", "brush.png"⟩, ⟨"paint", "icon.png"⟩] ∧
      Unambiguous (editorRegistry.embedded editorAssets editor links) ∧
      editor.AllLegible .widest editorAssets ∧
      (editor.definedLabels .widest editorAssets).count "__editor_icon_png_start" = 1 := by
  have hproper : editorAssets.Proper := by
    apply proper_assetFiles
    · decide
    · decide
  have hlinks : editorRegistry.linkClosure "editor" = .ok ["base", "paint", "lines"] := by cbv
  obtain ⟨editor, heditor⟩ : ∃ editor, editorRegistry.get? "editor" = some editor := ⟨_, rfl⟩
  have hembedded : editorRegistry.embedded editorAssets editor ["base", "paint", "lines"] =
      [⟨"editor", "icon.png"⟩, ⟨"paint", "brush.png"⟩, ⟨"paint", "icon.png"⟩] := by
    cases heditor
    cbv
  have hown : editorRegistry.get? editor.id = some editor := by
    rw [Registry.id_of_get? heditor, heditor]
  obtain ⟨-, hexact, hlabels⟩ :=
    Registry.assetSymbols_exact editorRegistry editorAssets editor ["base", "paint", "lines"]
      hproper hown
  have hunambiguous := hexact.2 (by
    rw [hembedded]
    exact Asset.not_confusable_of_plain (by decide) (by decide))
  have hfiles : listAssets editorAssets editor.assetDir = ["icon.png"] := by
    cases heditor
    cbv
  have hlegible : editor.AllLegible .widest editorAssets := by
    intro file hfile
    rw [hfiles, List.mem_singleton] at hfile
    subst hfile
    cases heditor
    exact ⟨by decide, by decide +kernel⟩
  have hmem : (⟨"editor", "icon.png"⟩ : Asset) ∈ editor.assets editorAssets :=
    Project.mem_assets.2 ⟨(Registry.id_of_get? heditor).symm, by simp [hfiles]⟩
  obtain ⟨honce, -⟩ := hlabels hunambiguous .widest editor List.mem_cons_self hlegible
  exact ⟨hproper, editor, heditor, _, hlinks, hembedded, hunambiguous, hlegible,
    honce _ hmem _ (by decide)⟩

/-- Assets of a library whose names differ by a full stop and an underscore. -/
def viewerAssets : FileSystem :=
  assetFiles [("viewer", ["font.bin", "font_bin"])]

/-- Assets of a library whose names hold what ends a label. -/
def brokenAssets : FileSystem :=
  assetFiles [("viewer", ["a", "a;b", "b\n__viewer_a_start: ;"])]

/-- Two ways in which labels are not told apart.  Names that differ by a full stop and an underscore
have the same symbol: the generated source defines its labels twice, and what the header declares
stands for both.  Names that hold what ends a label have different symbols, but break the generated
texts: the source defines a label more than once, and the header declares one that no embedded file
has. -/
theorem merged_symbols :
    viewerRegistry.get? viewer.id = some viewer ∧ viewerRegistry.linkClosure viewer.id = .ok [] ∧
      (viewerAssets.Proper ∧
        viewerRegistry.embedded viewerAssets viewer [] =
          [⟨"viewer", "font.bin"⟩, ⟨"viewer", "font_bin"⟩] ∧
        ¬ Unambiguous (viewerRegistry.embedded viewerAssets viewer []) ∧
        viewer.AllLegible .widest viewerAssets ∧
        ¬ (viewer.definedLabels .widest viewerAssets).Nodup ∧
        "__viewer_font_bin_start" ∈ viewer.declaredLabels .widest viewerAssets ∧
        "__viewer_font_bin_start" ∈ (Asset.mk "viewer" "font.bin").labels ∧
        "__viewer_font_bin_start" ∈ (Asset.mk "viewer" "font_bin").labels) ∧
      (brokenAssets.Proper ∧
        viewerRegistry.embedded brokenAssets viewer [] =
          [⟨"viewer", "a"⟩, ⟨"viewer", "a;b"⟩, ⟨"viewer", "b\n__viewer_a_start: ;"⟩] ∧
        Unambiguous (viewerRegistry.embedded brokenAssets viewer []) ∧
        ¬ (viewer.definedLabels .widest brokenAssets).Nodup ∧
        "__viewer_a" ∈ viewer.declaredLabels .widest brokenAssets ∧
        ∀ asset ∈ viewerRegistry.embedded brokenAssets viewer [], "__viewer_a" ∉ asset.labels) := by
  have hviewer : viewerRegistry.embedded viewerAssets viewer [] =
      [⟨"viewer", "font.bin"⟩, ⟨"viewer", "font_bin"⟩] := by cbv
  have hbroken : viewerRegistry.embedded brokenAssets viewer [] =
      [⟨"viewer", "a"⟩, ⟨"viewer", "a;b"⟩, ⟨"viewer", "b\n__viewer_a_start: ;"⟩] := by cbv
  have hfonts : listAssets viewerAssets viewer.assetDir = ["font.bin", "font_bin"] := by cbv
  have hnames : listAssets brokenAssets viewer.assetDir =
      ["a", "a;b", "b\n__viewer_a_start: ;"] := by cbv
  have hlegible : viewer.AllLegible .widest viewerAssets := by
    intro file hfile
    rw [hfonts] at hfile
    rcases List.mem_pair.1 hfile with rfl | rfl <;> exact ⟨by decide, by decide +kernel⟩
  have hmerged : ¬ Unambiguous (viewerRegistry.embedded viewerAssets viewer []) := by
    rw [hviewer]
    exact fun h => h ⟨"viewer", "font.bin"⟩ (by simp) ⟨"viewer", "font_bin"⟩ (by simp) (by decide)
      (by decide)
  have hdifferent : Unambiguous (viewerRegistry.embedded brokenAssets viewer []) := by
    rw [hbroken]
    exact unambiguous_iff.2 (Asset.not_confusable_of_plain (by decide) (by decide))
  refine ⟨rfl, by cbv, ⟨?_, hviewer, hmerged, hlegible, ?_, ?_, by decide, by decide⟩,
    ?_, hbroken, hdifferent, ?_, ?_, ?_⟩
  · apply proper_assetFiles <;> decide
  · rw [Project.definedLabels, Project.definedLabels_assetSourceText hlegible, hfonts]
    decide
  · rw [Project.declaredLabels, Project.declaredLabels_assetHeaderText hlegible, hfonts]
    decide
  · apply proper_assetFiles <;> decide
  · rw [Project.definedLabels, hnames, Project.assetSourceText_eq, LabelAlphabet.definedLabels,
      GeneratedLine.filterMap_linesOf_join rfl]
    decide +kernel
  · rw [Project.declaredLabels, hnames, Project.assetHeaderText_eq, LabelAlphabet.declaredLabels,
      GeneratedLine.filterMap_linesOf_join rfl]
    decide +kernel
  · rw [hbroken]
    decide

end Sample

end NativeBuild
