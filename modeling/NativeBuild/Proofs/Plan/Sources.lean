import NativeBuild.Plan.Unit
import NativeBuild.Proofs.FileSystem.WalkOrder
import NativeBuild.Proofs.Path.Below
import NativeBuild.Proofs.Traversal

/-!
# The sources of a directory

The sources of a directory are the regular files below it that have a language, at whatever
depth, each once and in the order of their paths.

Main definitions:

- `FileSystem.HasSource`: a source below a directory.

Main results:

- Theorem `mem_sources_iff`: which paths are found.
- Theorem `increasing_sources`: in which order they are found.
- Theorem `mem_filesIn_iff`: which files lie directly in a directory.
-/

namespace NativeBuild

/-- Below a directory, along some names, lies a regular file with a language.  The directory may
lie behind links; below it, no link is followed. -/
structure FileSystem.HasSource (fs : FileSystem) (directory : Path) (names : List FileName)
    (name : FileName) : Prop where
  exists_file : ∃ position node content,
    fs.locate .target directory = .ok (.present position node) ∧
      node.at? (names ++ [name]) = some (.file content)
  exists_language :
    ∃ language, Language.ofPath? (directory.below (names ++ [name])) = some language

variable {fs : FileSystem} {directory : Path} {sources : List Path} {names : List FileName}
  {name : FileName}

/-- The names along which a source lies are proper. -/
theorem FileSystem.HasSource.proper (hproper : fs.Proper) (h : fs.HasSource directory names name) :
    ∀ other ∈ names ++ [name], other.Proper := by
  obtain ⟨position, node, content, hlocate, hfile⟩ := h.exists_file
  exact (hproper.of_locate hlocate).names hfile

/-- The sources of a directory are those that a walk meets, when nothing stops it. -/
theorem discoverSources_eq_ok (h : discoverSources fs directory = .ok sources) :
    ∃ entries : List Visited, fs.walkBelow (fun _ => true) directory = entries.map .ok ∧
      sources = (entries.filter (·.isSource)).map (·.path) := by
  unfold discoverSources at h
  cases hentries : (fs.walkBelow (fun _ => true) directory).mapM id with
  | error e => simp [hentries, bind, Except.bind] at h
  | ok entries =>
      simp only [hentries, bind, Except.bind, pure, Except.pure] at h
      cases h
      refine ⟨entries, ?_, rfl⟩
      rw [← List.forall₂_eq_eq_eq, List.forall₂_map_right_iff]
      exact mapM_eq_ok_iff.1 hentries

/-- The paths that are found are those of the sources. -/
theorem mem_sources_iff (hproper : fs.Proper) (h : discoverSources fs directory = .ok sources)
    {path : Path} :
    path ∈ sources ↔
      ∃ names name, fs.HasSource directory names name ∧
        path = directory.below (names ++ [name]) := by
  obtain ⟨entries, hwalk, rfl⟩ := discoverSources_eq_ok h
  simp only [List.mem_map, List.mem_filter]
  constructor
  · rintro ⟨entry, ⟨hentry, hsource⟩, rfl⟩
    have hmet : .ok entry ∈ fs.walkBelow (fun _ => true) directory := by
      rw [hwalk]
      exact List.mem_map_of_mem hentry
    unfold FileSystem.walkBelow at hmet
    split at hmet
    · next position node hlocate =>
        obtain ⟨names, leaf, hpath, -, hleaf, hkind⟩ :=
          at?_of_mem_listing (hproper.of_locate hlocate) hmet
        obtain ⟨hfile, hlanguage⟩ : entry.kind = .file ∧
            (Language.ofPath? entry.path).isSome = true := by
          simpa [Visited.isSource] using hsource
        rw [hfile] at hkind
        cases leaf with
        | link target => cases hkind
        | directory inner => cases hkind
        | file content =>
            refine ⟨names, entry.name, ⟨⟨position, node, content, hlocate, hleaf⟩, ?_⟩, hpath⟩
            rw [← hpath]
            exact Option.isSome_iff_exists.1 hlanguage
    · cases hmet
  · rintro ⟨names, name, ⟨⟨position, node, content, hlocate, hfile⟩, hlanguage⟩, rfl⟩
    have hlisting : node.listing (fun _ => true) directory = entries.map .ok := by
      rw [← hwalk, FileSystem.walkBelow, hlocate]
    have hall : ∀ met ∈ node.listing (fun _ => true) directory, ∃ entry, met = .ok entry := by
      intro met hmet
      rw [hlisting] at hmet
      obtain ⟨entry, -, rfl⟩ := List.mem_map.1 hmet
      exact ⟨entry, rfl⟩
    have hmet := mem_listing_of_at? hall (fun _ _ => rfl) hfile (by simp [Node.kind])
    rw [hlisting] at hmet
    obtain ⟨entry, hentry, heq⟩ := List.mem_map.1 hmet
    cases heq
    refine ⟨_, ⟨hentry, ?_⟩, rfl⟩
    obtain ⟨language, hlanguage⟩ := hlanguage
    simp [Visited.isSource, Node.kind, hlanguage]

/-- Sources are found in the order of their paths, each once. -/
theorem increasing_sources (hproper : fs.Proper) (h : discoverSources fs directory = .ok sources) :
    sources.Pairwise fun a b => a.sortKey < b.sortKey := by
  obtain ⟨entries, hwalk, rfl⟩ := discoverSources_eq_ok h
  have hmet : (entries.map Except.ok : List Met).Pairwise Met.Precedes := by
    rw [← hwalk, FileSystem.walkBelow]
    split
    · next position node hlocate => exact increasing_listing (hproper.of_locate hlocate)
    · exact .nil
  have hentries : entries.Pairwise fun v w => v.path.sortKey < w.path.sortKey :=
    (List.pairwise_map.1 hmet).imp fun h => h _ _ rfl rfl
  exact List.pairwise_map.2 (hentries.filter _)

/-- The files directly in a directory are its entries that are regular files. -/
theorem mem_filesIn_iff (hproper : fs.Proper) :
    name ∈ fs.filesIn directory ↔ ∃ position node content,
      fs.locate .target directory = .ok (.present position node) ∧
        node.at? [name] = some (.file content) := by
  unfold FileSystem.filesIn
  constructor
  · intro h
    split at h
    · next position entries hlocate =>
        obtain ⟨entry, hentry, rfl⟩ := List.mem_map.1 h
        obtain ⟨hmem, hkind⟩ := List.mem_filter.1 hentry
        have hat := (hproper.of_locate hlocate).at?_of_mem (List.mem_mergeSort.1 hmem)
        obtain ⟨other, node⟩ := entry
        cases node with
        | link target => cases hkind
        | directory inner => cases hkind
        | file content => exact ⟨position, .directory entries, content, hlocate, hat⟩
    · cases h
  · rintro ⟨position, node, content, hlocate, hfile⟩
    cases node with
    | file other => cases hfile
    | link target => cases hfile
    | directory entries =>
        obtain ⟨inner, hentry, hinner⟩ := Option.bind_eq_some_iff.1 hfile
        cases hinner
        have hmem : (name, .file content) ∈ sortByName entries :=
          List.mem_mergeSort.2 (Entries.mem_of_get? hentry)
        simp only [hlocate]
        exact List.mem_map.2 ⟨_, List.mem_filter.2 ⟨hmem, rfl⟩, rfl⟩

end NativeBuild
