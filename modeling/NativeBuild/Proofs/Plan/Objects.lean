import Mathlib
import NativeBuild.Proofs.Build.Calls
import NativeBuild.Proofs.Plan.Sources

/-!
# The objects of a plan

The object of a source lies at the same place below the object directory as the source does below
the source directory, with a suffix at its name.  Different sources have different objects.  The
object of the generated source lies directly in the object directory, where that of a source with
the same name lies too.

Main definitions:

- `Project.assetName`: the name of the generated source.

Main results:

- Theorem `Project.objectOf_below`: where the object of a source lies.
- Theorem `Project.objectOf_same_iff`: objects that are the same are those of one source.
- Theorem `distinct_objects_iff`: when the objects of a plan are different.
-/

namespace NativeBuild

open Text

/-- A proper name stays proper with the suffix of objects at its end. -/
theorem FileName.Proper.asObject {name : FileName} (h : name.Proper) :
    (name ++ utf8 ".o").Proper :=
  proper_append h.noSlash (by decide) ⟨0x6F, by decide, by decide⟩

namespace Project

variable (p : Project) {names others : List FileName} {name other : FileName}

/-- The object of a source lies at the same place below the object directory, with a suffix at its
name. -/
theorem objectOf_below (hnames : ∀ n ∈ names ++ [name], FileName.Proper n) :
    p.objectOf (p.sourceDir.below (names ++ [name])) =
      p.objDir.below (names ++ [name ++ utf8 ".o"]) := by
  have hdir : p.sourceDir.Unslashed := p.root.unslashed_child (by decide)
  have hname : name.Proper := hnames name (by simp)
  rw [objectOf, Path.stripPrefix?_below hdir hnames]
  dsimp only
  rw [Path.join_joinPieces _ hnames (by simp), Path.asObject, Path.below_concat,
    Path.child_withSuffix _ hname, ← Path.below_concat]

/-- Names with the suffix of objects at the end are proper. -/
theorem proper_object (hnames : ∀ n ∈ names ++ [name], FileName.Proper n) :
    ∀ n ∈ names ++ [name ++ utf8 ".o"], FileName.Proper n := by
  rw [List.forall_mem_append, List.forall_mem_singleton] at hnames ⊢
  exact ⟨hnames.1, hnames.2.asObject⟩

/-- Objects of sources are the same when the sources lie at the same place. -/
theorem objectOf_same_iff (hnames : ∀ n ∈ names ++ [name], FileName.Proper n)
    (hothers : ∀ n ∈ others ++ [other], FileName.Proper n) :
    (p.objectOf (p.sourceDir.below (names ++ [name]))).same
        (p.objectOf (p.sourceDir.below (others ++ [other]))) = true ↔
      names = others ∧ name = other := by
  rw [p.objectOf_below hnames, p.objectOf_below hothers,
    Path.same_below_iff _ (proper_object hnames) (proper_object hothers)]
  constructor
  · intro h
    obtain ⟨hfront, hlast⟩ := List.append_inj' h rfl
    exact ⟨hfront, List.append_cancel_right (List.singleton_inj.1 hlast)⟩
  · rintro ⟨rfl, rfl⟩
    rfl

/-- The name of the generated source. -/
def assetName : FileName :=
  utf8 "__assets.s"

/-- The object of the generated source is that of a source with its name directly in the source
directory. -/
theorem object_assetUnit : p.assetUnit.object = p.objectOf (p.sourceDir.child assetName) := by
  have hname : assetName.Proper := by decide
  have hchild : p.sourceDir.child assetName = p.sourceDir.below ([] ++ [assetName]) := rfl
  rw [hchild, p.objectOf_below (by simpa using hname)]
  exact Path.child_withSuffix _ hname _

end Project

/-! ## The objects of a plan -/

variable {r : Registry} {fs : FileSystem} {p : Project} {plan : ArtifactPlan} {sources : List Path}

/-- A plan has the units of the sources that are found. -/
theorem units_of_plan (h : r.plan fs p = .ok plan) :
    ∃ sources, discoverSources fs p.sourceDir = .ok sources ∧ plan.units = p.units sources := by
  unfold Registry.plan at h
  cases houtput : p.requireOutput with
  | error e => simp [houtput, bind, Except.bind] at h
  | ok output =>
      cases hsources : discoverSources fs p.sourceDir with
      | error stop => simp [houtput, hsources, bind, Except.bind, Except.mapError] at h
      | ok sources =>
          simp only [houtput, hsources, bind, Except.bind, Except.mapError] at h
          obtain ⟨-, -, -, hunits⟩ := Registry.planWith_eq_ok h
          exact ⟨sources, rfl, hunits⟩

/-- The objects of a project are that of the generated source and one for each source that is
found. -/
theorem objects_units (hproper : fs.Proper)
    (hsources : discoverSources fs p.sourceDir = .ok sources) :
    (p.units sources).map (·.object) =
      p.objectOf (p.sourceDir.child Project.assetName) :: sources.map p.objectOf := by
  have hunits : ∀ source ∈ sources, (p.unitOf? source).map (·.object) =
      some (p.objectOf source) := by
    intro source hsource
    obtain ⟨names, name, hfound, rfl⟩ := (mem_sources_iff hproper hsources).1 hsource
    obtain ⟨language, hlanguage⟩ := hfound.exists_language
    simp [Project.unitOf?, hlanguage]
  rw [Project.units, List.map_cons, p.object_assetUnit, List.map_filterMap]
  congr 1
  rw [List.filterMap_congr hunits, List.filterMap_eq_map']

/-- Sources that are found have different objects. -/
theorem distinct_objects_of_sources (hproper : fs.Proper)
    (hsources : discoverSources fs p.sourceDir = .ok sources) :
    (sources.map p.objectOf).Pairwise fun a b => a.same b = false := by
  refine List.pairwise_map.2 ((increasing_sources hproper hsources).imp_of_mem ?_)
  intro a b ha hb hlt
  obtain ⟨names, name, hfirst, rfl⟩ := (mem_sources_iff hproper hsources).1 ha
  obtain ⟨others, other, hsecond, rfl⟩ := (mem_sources_iff hproper hsources).1 hb
  rw [Bool.eq_false_iff, ne_eq, p.objectOf_same_iff (hfirst.proper hproper)
    (hsecond.proper hproper)]
  rintro ⟨rfl, rfl⟩
  exact List.lt_irrefl _ hlt

/-- A regular file with the name of the generated source is a source. -/
theorem hasSource_assetName_iff (hproper : fs.Proper) {directory : Path} :
    fs.HasSource directory [] Project.assetName ↔ Project.assetName ∈ fs.filesIn directory := by
  rw [mem_filesIn_iff hproper]
  constructor
  · exact fun h => h.exists_file
  · intro hfile
    refine ⟨hfile, .assembly, ?_⟩
    have hextension : Path.extensionOf? Project.assetName = some (utf8 "s") := by decide
    have hname : ∀ n ∈ [] ++ [Project.assetName], FileName.Proper n := by decide
    rw [Language.ofPath?, directory.extension?_below hname, hextension]
    decide

/-- Different sources of a plan have different objects, whatever tree they lie in.  So all the
objects of a plan are different if and only if no regular file with the name of the generated
source lies directly in the source directory: that file has the object of the generated source. -/
theorem distinct_objects_iff (r : Registry) (fs : FileSystem) (p : Project) (plan : ArtifactPlan)
    (hproper : fs.Proper) (hplan : r.plan fs p = .ok plan) :
    (plan.objects.tail.Pairwise fun a b => a.same b = false) ∧
      ((plan.objects.Pairwise fun a b => a.same b = false) ↔
        utf8 "__assets.s" ∉ fs.filesIn p.sourceDir) := by
  obtain ⟨sources, hsources, hunits⟩ := units_of_plan hplan
  have hobjects : plan.objects =
      p.objectOf (p.sourceDir.child Project.assetName) :: sources.map p.objectOf := by
    rw [ArtifactPlan.objects, hunits, objects_units hproper hsources]
  have hdistinct := distinct_objects_of_sources (p := p) hproper hsources
  rw [hobjects, List.tail_cons]
  refine ⟨hdistinct, ?_⟩
  rw [List.pairwise_cons, and_iff_left hdistinct]
  change _ ↔ Project.assetName ∉ fs.filesIn p.sourceDir
  rw [← hasSource_assetName_iff hproper]
  constructor
  · intro hdifferent hsource
    have hmem : p.sourceDir.child Project.assetName ∈ sources :=
      (mem_sources_iff hproper hsources).2 ⟨[], Project.assetName, hsource, rfl⟩
    have hself := hdifferent _ (List.mem_map_of_mem hmem)
    rw [Path.same_refl] at hself
    cases hself
  · intro hfree object hobject
    obtain ⟨source, hsource, rfl⟩ := List.mem_map.1 hobject
    obtain ⟨names, name, hfound, rfl⟩ := (mem_sources_iff hproper hsources).1 hsource
    have hasset : ∀ n ∈ [] ++ [Project.assetName], FileName.Proper n := by decide
    rw [Bool.eq_false_iff]
    intro hsame
    obtain ⟨rfl, rfl⟩ := (p.objectOf_same_iff hasset (hfound.proper hproper)).1 hsame
    exact hfree hfound

/-! ## A sample -/

namespace Sample

/-- A library. -/
def viewer : Project :=
  { id := "viewer", kind := .library, root := Path.ofString "viewer" }

/-- The library alone. -/
def viewerRegistry : Registry where
  projects := [viewer]
  sorted := by decide

/-- The library with some sources. -/
def viewerFiles (sources : Entries) : FileSystem where
  root := [(utf8 "viewer", .directory [(utf8 "sources", .directory sources)])]

/-- The sample files are a proper tree if the sources are. -/
theorem proper_viewerFiles {sources : Entries} (h : (Node.directory sources).Proper) :
    (viewerFiles sources).Proper :=
  Node.proper_singleton (by decide) (Node.proper_singleton (by decide) h)

/-- Sources with the same name, or that of the generated source, but at different places. -/
def similarSources : Entries :=
  [(utf8 "page", .directory [(utf8 "__assets.s", .file [])]), (utf8 "a.s", .file []),
    (utf8 "a.c", .file [])]

/-- All of them have different objects. -/
theorem similar_objects :
    (viewerFiles similarSources).Proper ∧
    ∃ plan, viewerRegistry.plan (viewerFiles similarSources) viewer = .ok plan ∧
      plan.objects = ["viewer/obj/__assets.s.o", "viewer/obj/a.c.o", "viewer/obj/a.s.o",
        "viewer/obj/page/__assets.s.o"].map Path.ofString ∧
      plan.objects.Pairwise fun a b => a.same b = false := by
  have hproper : (viewerFiles similarSources).Proper := by
    apply proper_viewerFiles
    apply Node.proper_directory (by decide)
    have hpage : (Node.directory [(utf8 "__assets.s", .file [])]).Proper :=
      Node.proper_directory (by decide) (by simp [Node.proper_file])
    simp [similarSources, Node.proper_file, hpage]
  have hplan : viewerRegistry.plan (viewerFiles similarSources) viewer = .ok {
      project := "viewer"
      kind := .library
      units := viewer.units (["viewer/sources/a.c", "viewer/sources/a.s",
        "viewer/sources/page/__assets.s"].map Path.ofString)
      includePaths := [Path.ofString "viewer/includes", Path.ofString "viewer/obj"]
      libraries := []
      output := Path.ofString "viewer/bin/viewer.lib" } := by cbv
  have hfiles : (viewerFiles similarSources).filesIn viewer.sourceDir =
      ["a.c", "a.s"].map utf8 := by cbv
  have hfree : utf8 "__assets.s" ∉ (viewerFiles similarSources).filesIn viewer.sourceDir := by
    rw [hfiles]
    decide
  exact ⟨hproper, _, hplan, by cbv, (distinct_objects_iff _ _ _ _ hproper hplan).2.2 hfree⟩

/-- A source with the name of the generated one, directly in the source directory. -/
def shadowSources : Entries :=
  [(utf8 "__assets.s", .file [])]

/-- Both units have one object, which the link step receives twice. -/
theorem shadowed_object :
    (viewerFiles shadowSources).Proper ∧
    ∃ plan, viewerRegistry.plan (viewerFiles shadowSources) viewer = .ok plan ∧
      plan.objects = ["viewer/obj/__assets.s.o", "viewer/obj/__assets.s.o"].map Path.ofString ∧
      ¬ plan.objects.Pairwise fun a b => a.same b = false := by
  have hplan : viewerRegistry.plan (viewerFiles shadowSources) viewer = .ok {
      project := "viewer"
      kind := .library
      units := viewer.units [Path.ofString "viewer/sources/__assets.s"]
      includePaths := [Path.ofString "viewer/includes", Path.ofString "viewer/obj"]
      libraries := []
      output := Path.ofString "viewer/bin/viewer.lib" } := by cbv
  have hobjects : (viewer.units [Path.ofString "viewer/sources/__assets.s"]).map (·.object) =
      ["viewer/obj/__assets.s.o", "viewer/obj/__assets.s.o"].map Path.ofString := by cbv
  refine ⟨proper_viewerFiles ?_, _, hplan, hobjects, ?_⟩
  · exact Node.proper_directory (by decide) (by simp [shadowSources, Node.proper_file])
  · rw [ArtifactPlan.objects, hobjects]
    intro hdistinct
    have hfirst := (List.pairwise_cons.1 hdistinct).1 _ List.mem_cons_self
    rw [Path.same_refl] at hfirst
    cases hfirst

end Sample

end NativeBuild
