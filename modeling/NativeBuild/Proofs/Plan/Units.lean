import Mathlib
import NativeBuild.Proofs.Plan.Dependencies
import NativeBuild.Proofs.Plan.Objects

/-!
# The units of a plan

The sources of a project are exactly the regular files below its source directory whose names have
a full stop and the extension of a language after something else.  Each of them is a unit of the
plan, in the order of their paths and after the unit of the generated source.

Main definitions:

- `Language.extension`: the extension of the sources in a language.
- `FileSystem.Readable`: a directory below which every directory can be read.
- `FileSystem.HasFile`: a regular file below a directory.
- `Project.MakesUnit`: how a source and its unit belong together.

Main results:

- Theorem `Path.extensionOf?_eq_some_iff`: which names have an extension.
- Theorem `exists_sources_iff`: when the sources of a directory are found.
- Theorem `exists_plan_iff`: when a project can be planned.
- Theorem `sources_and_units_exact`: which sources are found, and which units they become.
-/

namespace NativeBuild

open Text

/-! ## Extensions -/

/-- What follows the last full stop of a name is its extension, unless nothing is before it. -/
theorem Path.extensionOf?_append (stem : FileName) {extension : List UInt8}
    (hlast : dot ∉ extension) :
    Path.extensionOf? (stem ++ dot :: extension) = if stem = [] then none else some extension := by
  have hafter : (stem ++ dot :: extension).reverse.takeWhile (· != dot) = extension.reverse := by
    rw [List.reverse_append, List.reverse_cons, List.append_assoc, List.takeWhile_append_of_pos]
    · simp
    · intro b hb
      rw [List.mem_reverse] at hb
      simpa using ne_of_mem_of_not_mem hb hlast
  rw [Path.extensionOf?, hafter, List.reverse_reverse]
  cases stem with
  | nil => simp
  | cons b rest => simp

/-- A name without a full stop has no extension. -/
theorem Path.extensionOf?_of_not_mem {name : FileName} (h : dot ∉ name) :
    Path.extensionOf? name = none := by
  have hafter : name.reverse.takeWhile (· != dot) = name.reverse := by
    rw [List.takeWhile_eq_self_iff]
    intro b hb
    rw [List.mem_reverse] at hb
    simpa using ne_of_mem_of_not_mem hb h
  simp [Path.extensionOf?, hafter]

/-- A name has an extension when something, a full stop and the extension make it up. -/
theorem Path.extensionOf?_eq_some_iff {name : FileName} {extension : List UInt8}
    (hlast : dot ∉ extension) :
    Path.extensionOf? name = some extension ↔ ∃ stem ≠ [], name = stem ++ dot :: extension := by
  constructor
  · intro h
    by_cases hdot : dot ∈ name
    · obtain ⟨after, before, hsplit, hafter⟩ :=
        List.eq_append_cons_of_mem (List.mem_reverse.2 hdot)
      have hname : name = before.reverse ++ dot :: after.reverse := by
        rw [← List.reverse_reverse name, hsplit]
        simp
      rw [hname, Path.extensionOf?_append _ (by simpa using hafter)] at h
      split at h
      · cases h
      · next hstem => exact ⟨before.reverse, hstem, by rw [hname, Option.some.inj h]⟩
    · rw [Path.extensionOf?_of_not_mem hdot] at h
      cases h
  · rintro ⟨stem, hstem, rfl⟩
    rw [Path.extensionOf?_append stem hlast, if_neg hstem]

namespace Language

/-- The extension of the sources in a language. -/
def extension : Language → List UInt8
  | .c => utf8 "c"
  | .assembly => utf8 "s"

/-- The extension of a language has no full stop in it. -/
theorem dot_not_mem_extension (language : Language) : dot ∉ language.extension := by
  cases language <;> decide

/-- A source has the language of its extension. -/
theorem ofPath?_eq_some_iff {path : Path} {language : Language} :
    ofPath? path = some language ↔ path.extension? = some language.extension := by
  have hne : utf8 "s" ≠ utf8 "c" := by decide
  unfold ofPath?
  cases path.extension? with
  | none => simp
  | some other =>
      cases language with
      | c => simp [extension]
      | assembly =>
          simp only [extension, Option.some_inj]
          constructor
          · intro h
            split at h
            · cases h
            · split at h
              · next hs => exact hs
              · cases h
          · rintro rfl
            rw [if_neg hne, if_pos rfl]

/-- A path below a directory has a language when its last name has the extension of the language
after something else. -/
theorem ofPath?_below_iff (directory : Path) {names : List FileName} {name : FileName}
    (hnames : ∀ other ∈ names ++ [name], FileName.Proper other) {language : Language} :
    ofPath? (directory.below (names ++ [name])) = some language ↔
      ∃ stem ≠ [], name = stem ++ dot :: language.extension := by
  rw [ofPath?_eq_some_iff, directory.extension?_below hnames,
    Path.extensionOf?_eq_some_iff language.dot_not_mem_extension]

end Language

/-! ## Sources that are found -/

namespace FileSystem

/-- Every directory at or below the one that a path leads to can be read: its path is not too long
for the system. -/
def Readable (fs : FileSystem) (directory : Path) : Prop :=
  ∀ position node names entries, fs.locate .target directory = .ok (.present position node) →
    node.at? names = some (.directory entries) →
      (directory.below names).bytes.length ≤ maxPath

/-- Below a directory, along some names, lies a regular file.  The directory may lie behind links;
below it, no link is followed. -/
def HasFile (fs : FileSystem) (directory : Path) (names : List FileName) : Prop :=
  ∃ position node content, fs.locate .target directory = .ok (.present position node) ∧
    node.at? names = some (.file content)

end FileSystem

variable {fs : FileSystem} {directory : Path} {sources : List Path}

/-- The sources of a directory are found when nothing stops the walk below it. -/
theorem exists_sources_iff_walk :
    (∃ sources, discoverSources fs directory = .ok sources) ↔
      ∀ met ∈ fs.walkBelow (fun _ => true) directory, ∃ entry, met = .ok entry := by
  constructor
  · rintro ⟨sources, hsources⟩ met hmet
    obtain ⟨entries, hwalk, -⟩ := discoverSources_eq_ok hsources
    rw [hwalk] at hmet
    obtain ⟨entry, -, rfl⟩ := List.mem_map.1 hmet
    exact ⟨entry, rfl⟩
  · intro h
    obtain ⟨entries, hentries⟩ : ∃ entries,
        (fs.walkBelow (fun _ => true) directory).mapM id = .ok entries := exists_mapM_eq_ok h
    exact ⟨_, by rw [discoverSources, hentries]; rfl⟩

/-- The sources of a directory are found when every directory there can be read. -/
theorem exists_sources_iff (hproper : fs.Proper) :
    (∃ sources, discoverSources fs directory = .ok sources) ↔ fs.Readable directory := by
  rw [exists_sources_iff_walk, FileSystem.Readable, FileSystem.walkBelow]
  cases hlocate : fs.locate .target directory with
  | error fault => simp
  | ok location =>
      cases location with
      | absent above name => simp
      | present position node =>
          dsimp only
          rw [listing_ok_iff (hproper.of_locate hlocate)]
          constructor
          · rintro h _ _ names entries ⟨⟩ hat
            exact h names entries (fun _ _ => rfl) hat
          · intro h names entries _ hat
            exact h position node names entries rfl hat

/-- The sources that are found are the regular files with the extension of a language after
something else in their names. -/
theorem mem_sources_iff_extension (hproper : fs.Proper)
    (h : discoverSources fs directory = .ok sources) {path : Path} :
    path ∈ sources ↔ ∃ names stem, ∃ language : Language, stem ≠ [] ∧
      fs.HasFile directory (names ++ [stem ++ dot :: language.extension]) ∧
      path = directory.below (names ++ [stem ++ dot :: language.extension]) := by
  rw [mem_sources_iff hproper h]
  constructor
  · rintro ⟨names, name, hsource, rfl⟩
    obtain ⟨language, hlanguage⟩ := hsource.exists_language
    obtain ⟨stem, hstem, rfl⟩ :=
      (Language.ofPath?_below_iff directory (hsource.proper hproper)).1 hlanguage
    exact ⟨names, stem, language, hstem, hsource.exists_file, rfl⟩
  · rintro ⟨names, stem, language, hstem, hfile, rfl⟩
    obtain ⟨position, node, content, hlocate, hat⟩ := hfile
    have hnames := (hproper.of_locate hlocate).names hat
    exact ⟨names, _, ⟨⟨position, node, content, hlocate, hat⟩, language,
      (Language.ofPath?_below_iff directory hnames).2 ⟨stem, hstem, rfl⟩⟩, rfl⟩

/-- Where something lies below a path, or a directory at it, the path leads to a directory. -/
theorem isDirectory_of_at? {position names : List FileName} {node leaf : Node}
    (hlocate : fs.locate .target directory = .ok (.present position node))
    (hat : node.at? names = some leaf) (h : names ≠ [] ∨ ∃ entries, leaf = .directory entries) :
    fs.isDirectory directory = true := by
  suffices hnode : ∃ entries, node = .directory entries by
    obtain ⟨entries, rfl⟩ := hnode
    exact FileSystem.isDirectory_iff.2 ⟨position, entries, hlocate⟩
  cases names with
  | nil =>
      obtain rfl : node = leaf := Option.some.inj hat
      exact h.resolve_left (· rfl)
  | cons name rest =>
      cases node with
      | directory entries => exact ⟨entries, rfl⟩
      | file content => cases hat
      | link target => cases hat

/-- Where there is no directory, no source is found, and nothing stops the search. -/
theorem sources_of_not_isDirectory (hproper : fs.Proper)
    (hnone : fs.isDirectory directory = false) : discoverSources fs directory = .ok [] := by
  have hreadable : fs.Readable directory := fun position node names entries hlocate hat => by
    rw [isDirectory_of_at? hlocate hat (.inr ⟨entries, rfl⟩)] at hnone
    cases hnone
  obtain ⟨sources, hsources⟩ := (exists_sources_iff hproper).2 hreadable
  rw [hsources, Except.ok.injEq]
  refine List.eq_nil_iff_forall_not_mem.2 fun path hpath => ?_
  obtain ⟨names, name, hsource, -⟩ := (mem_sources_iff hproper hsources).1 hpath
  obtain ⟨position, node, content, hlocate, hat⟩ := hsource.exists_file
  rw [isDirectory_of_at? hlocate hat (.inl (by simp))] at hnone
  cases hnone

/-! ## Units -/

/-- A unit is made of a source: its language is that of the extension, and its object lies below the
object directory as the source does below the source directory, with a suffix. -/
structure Project.MakesUnit (p : Project) (source : Path) (unit : CompilationUnit) : Prop where
  source_eq : unit.source = source
  language : source.extension? = some unit.language.extension
  object : ∃ relative : Path, relative.isRooted = false ∧ p.sourceDir.join relative = source ∧
    unit.object = (p.objDir.join relative).withSuffix ".o"

variable {r : Registry} {p : Project}

/-- A source that is found becomes a unit. -/
theorem FileSystem.HasSource.unitOf? {names : List FileName} {name : FileName}
    (hproper : fs.Proper) (h : fs.HasSource p.sourceDir names name) :
    ∃ unit, p.unitOf? (p.sourceDir.below (names ++ [name])) = some unit ∧
      p.MakesUnit (p.sourceDir.below (names ++ [name])) unit := by
  obtain ⟨language, hlanguage⟩ := h.exists_language
  have hnames := h.proper hproper
  have hdir : p.sourceDir.Unslashed := p.root.unslashed_child (by decide)
  refine ⟨⟨_, _, language⟩, by rw [Project.unitOf?, hlanguage]; rfl, rfl,
    Language.ofPath?_eq_some_iff.1 hlanguage, ⟨Path.joinPieces (names ++ [name])⟩,
    Path.isRooted_joinPieces hnames, Path.join_joinPieces _ hnames (by simp), ?_⟩
  rw [Project.objectOf, Path.stripPrefix?_below hdir hnames]
  rfl

/-- The sources that are found become units, one each and in their order. -/
theorem forall₂_units (hproper : fs.Proper) (h : discoverSources fs p.sourceDir = .ok sources) :
    List.Forall₂ p.MakesUnit sources (sources.filterMap p.unitOf?) := by
  have hall : ∀ source ∈ sources,
      ∃ unit, p.unitOf? source = some unit ∧ p.MakesUnit source unit := by
    intro source hsource
    obtain ⟨names, name, hfound, rfl⟩ := (mem_sources_iff hproper h).1 hsource
    exact hfound.unitOf? hproper
  clear h
  induction sources with
  | nil => exact .nil
  | cons source rest ih =>
      obtain ⟨⟨unit, hunit, hmakes⟩, hrest⟩ := List.forall_mem_cons.1 hall
      rw [List.filterMap_cons_some hunit]
      exact .cons hmakes (ih hrest)

/-- A project can be planned when its sources can be found, its kind is known and it has both
closures. -/
theorem exists_plan_iff (hproper : fs.Proper) :
    (∃ plan, r.plan fs p = .ok plan) ↔
      fs.Readable p.sourceDir ∧ p.kind.isKnown = true ∧
        (∃ links, r.linkClosure p.id = .ok links) ∧
        ∃ headers, r.headerClosure p.id = .ok headers := by
  rw [← exists_sources_iff hproper, ← p.isSome_output?, Option.isSome_iff_exists]
  constructor
  · rintro ⟨plan, hplan⟩
    cases houtput : p.output? with
    | none => simp [Registry.plan, Project.requireOutput, houtput, bind, Except.bind] at hplan
    | some output =>
        cases hsources : discoverSources fs p.sourceDir with
        | error stop =>
            simp [Registry.plan, Project.requireOutput, houtput, hsources, bind, Except.bind,
              Except.mapError] at hplan
        | ok sources =>
            simp only [Registry.plan, Project.requireOutput, houtput, hsources, bind, Except.bind,
              Except.mapError] at hplan
            obtain ⟨hincludes, -⟩ := Registry.planWith_eq_ok hplan
            obtain ⟨links, headers, hlinks, hheaders, -⟩ :=
              Registry.includePaths_eq_ok_iff.1 hincludes
            exact ⟨⟨sources, rfl⟩, ⟨output, rfl⟩, ⟨links, hlinks⟩, headers, hheaders⟩
  · rintro ⟨⟨sources, hsources⟩, ⟨output, houtput⟩, ⟨links, hlinks⟩, headers, hheaders⟩
    obtain ⟨plan, hplan⟩ := Registry.exists_planWith hlinks hheaders output sources
    refine ⟨plan, ?_⟩
    simpa [Registry.plan, Project.requireOutput, houtput, hsources, bind, Except.bind,
      Except.mapError] using hplan

/-- The sources and the units are exact.  The sources of a directory are found if and only if every
directory there can be read.  They are then the regular files below it, along no links, whose names
have the extension of a language after something else, in the order of their paths and each once;
where there is no directory, there are none.  The units of a plan are that of the generated source
and then one for each source that is found, in their order. -/
theorem sources_and_units_exact (r : Registry) (fs : FileSystem) (hproper : fs.Proper) :
    (∀ directory,
      ((∃ sources, discoverSources fs directory = .ok sources) ↔ fs.Readable directory) ∧
      (∀ sources, discoverSources fs directory = .ok sources →
        (∀ path, path ∈ sources ↔ ∃ names stem, ∃ language : Language, stem ≠ [] ∧
          fs.HasFile directory (names ++ [stem ++ dot :: language.extension]) ∧
          path = directory.below (names ++ [stem ++ dot :: language.extension])) ∧
        sources.Pairwise fun a b => a.sortKey < b.sortKey) ∧
      (fs.isDirectory directory = false → discoverSources fs directory = .ok [])) ∧
    ∀ p : Project,
      ((∃ plan, r.plan fs p = .ok plan) ↔
        fs.Readable p.sourceDir ∧ p.kind.isKnown = true ∧
          (∃ links, r.linkClosure p.id = .ok links) ∧
          ∃ headers, r.headerClosure p.id = .ok headers) ∧
      ∀ plan, r.plan fs p = .ok plan →
        ∃ sources units, discoverSources fs p.sourceDir = .ok sources ∧
          plan.units = ⟨p.objDir.joinText "__assets.s",
            (p.objDir.joinText "__assets.s").withSuffix ".o", .assembly⟩ :: units ∧
          List.Forall₂ p.MakesUnit sources units := by
  refine ⟨fun directory => ⟨exists_sources_iff hproper, fun sources h => ⟨fun path =>
    mem_sources_iff_extension hproper h, increasing_sources hproper h⟩,
    sources_of_not_isDirectory hproper⟩, fun p => ⟨exists_plan_iff hproper, fun plan hplan => ?_⟩⟩
  obtain ⟨sources, hsources, hunits⟩ := units_of_plan hplan
  exact ⟨sources, _, hsources, hunits, forall₂_units hproper hsources⟩

/-! ## A sample -/

namespace Sample

/-- A directory beside files whose names start as its own, a file whose name starts with a full
stop, one without a language and a link to a source. -/
def layeredSources : Entries :=
  [(utf8 "a.c", .file []), (utf8 "notes", .file []), (utf8 "b.c", .link (Path.ofString "a.c")),
    (utf8 "a", .directory [(utf8 "y.z.s", .file []), (utf8 "x.c", .file [])]),
    (utf8 ".c", .file []), (utf8 "a-b.s", .file [])]

/-- Of these, four are sources.  A directory stands with its name in their order, so that what is
in it comes before the files beside it. -/
theorem layered_units :
    (viewerFiles layeredSources).Proper ∧
    ∃ plan, viewerRegistry.plan (viewerFiles layeredSources) viewer = .ok plan ∧
    ∃ sources units,
      sources = ["viewer/sources/a/x.c", "viewer/sources/a/y.z.s", "viewer/sources/a-b.s",
        "viewer/sources/a.c"].map Path.ofString ∧
      discoverSources (viewerFiles layeredSources) viewer.sourceDir = .ok sources ∧
      plan.units = ⟨Path.ofString "viewer/obj/__assets.s", Path.ofString "viewer/obj/__assets.s.o",
        .assembly⟩ :: units ∧
      List.Forall₂ viewer.MakesUnit sources units := by
  have hproper : (viewerFiles layeredSources).Proper := by
    apply proper_viewerFiles
    apply Node.proper_directory (by decide)
    have hinner : (Node.directory [(utf8 "y.z.s", .file []), (utf8 "x.c", .file [])]).Proper :=
      Node.proper_directory (by decide) (by simp [Node.proper_file])
    simp [layeredSources, Node.proper_file, Node.proper_link, hinner]
  have hfound : discoverSources (viewerFiles layeredSources) viewer.sourceDir =
      .ok (["viewer/sources/a/x.c", "viewer/sources/a/y.z.s", "viewer/sources/a-b.s",
        "viewer/sources/a.c"].map Path.ofString) := by cbv
  obtain ⟨hsources, hunits⟩ := sources_and_units_exact viewerRegistry _ hproper
  have hreadable := (hsources viewer.sourceDir).1.1 ⟨_, hfound⟩
  have hlinks : viewerRegistry.linkClosure viewer.id = .ok [] := by cbv
  have hheaders : viewerRegistry.headerClosure viewer.id = .ok [] := by cbv
  obtain ⟨plan, hplan⟩ := (hunits viewer).1.2 ⟨hreadable, rfl, ⟨_, hlinks⟩, _, hheaders⟩
  obtain ⟨sources, units, hdiscover, hplanned, hmade⟩ := (hunits viewer).2 plan hplan
  obtain rfl : _ = sources := Except.ok.inj (hfound.symm.trans hdiscover)
  exact ⟨hproper, plan, hplan, _, units, rfl, hfound, hplanned, hmade⟩

end Sample

end NativeBuild
