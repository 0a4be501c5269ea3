import NativeBuild.Proofs.Build.Frame
import NativeBuild.Proofs.FileSystem.Removal
import NativeBuild.Proofs.Plan.Outputs

/-!
# Where a build writes

Whatever a build asks the toolchain to write, it is an object of the project that the call is made
for, or what that project produces.  Objects lie below the directory of objects, however the
sources are named; for what is produced it depends on the id.  And cleaning a project leaves
nothing below its two directories, whatever links there are.

Main definitions:

- `Backend.OnFiles`: a backend that works on trees of files.

Main results:

- Theorem `MadeFor.writes`: what a call that is made for a project writes.
- Theorem `not_found_of_clean`: what cleaning a project leaves.
- Theorem `writes_confined`: both of these for builds.
-/

namespace NativeBuild

open Text

/-- The backend looks for sources in trees of files, and removes directories from the one that
belongs to its world. -/
structure Backend.OnFiles {σ : Type} (backend : Backend σ) (files : σ → FileSystem) : Prop where
  scan : ∀ {directory world sources after}, backend.scan directory world = .ok sources after →
    ∃ fs : FileSystem, fs.Proper ∧ discoverSources fs directory = .ok sources
  remove : ∀ {path world after},
    backend.perform (.removeDirectoryTree path) world = .ok () after →
      FileSystem.removeTreeIfAny path (files world) = .ok () (files after)

namespace BuildSetup

open Build

variable {σ : Type} {x : BuildSetup σ} {files : σ → FileSystem} {p : Project} {call : ToolCall}
  {path : Path}

/-! ## What calls write -/

/-- What is found in a tree of files has its objects below the directory of objects. -/
theorem Found.strictlyBelow_object (hfiles : x.backend.OnFiles files) {sources : List Path}
    (hsources : x.Found p sources) {unit : CompilationUnit} (hunit : unit ∈ p.units sources) :
    unit.object.StrictlyBelow p.objDir := by
  obtain ⟨world, after, hscan⟩ := hsources
  obtain ⟨fs, hproper, hfound⟩ := hfiles.scan hscan
  exact NativeBuild.strictlyBelow_object hproper hfound hunit

/-- A call that is made for a project writes an object of it, or it is a part of linking and writes
what the project produces. -/
theorem MadeFor.writes (hfiles : x.backend.OnFiles files) (h : x.MadeFor p call)
    (hpath : path ∈ call.outputs) :
    (call.linkStage? = none ∧ path.StrictlyBelow p.objDir) ∨
      (call.linkStage?.isSome ∧ p.HasOutput path) := by
  cases h with
  | objDir => cases hpath
  | binDir => cases hpath
  | objectDirectory => cases hpath
  | compile hsources hunit =>
      cases List.mem_singleton.1 hpath
      exact .inl ⟨rfl, hsources.strictlyBelow_object hfiles hunit⟩
  | assemble hsources hunit =>
      cases List.mem_singleton.1 hpath
      exact .inl ⟨rfl, hsources.strictlyBelow_object hfiles hunit⟩
  | archive _ houtput =>
      cases List.mem_singleton.1 hpath
      exact .inr ⟨rfl, .inl houtput⟩
  | link _ houtput =>
      cases List.mem_singleton.1 hpath
      exact .inr ⟨rfl, .inl houtput⟩
  | disassemble _ hlisting =>
      cases List.mem_singleton.1 hpath
      exact .inr ⟨rfl, .inr hlisting⟩

/-! ## What cleaning leaves -/

/-- After a project is cleaned, nothing is found below its two directories. -/
theorem not_found_of_clean (hfiles : x.backend.OnFiles files) (hp : x.registry.get? p.id = some p)
    {s t : Session σ} (h : (x.clean p.id).outcome s = (.ok (), t)) (hpath : p.Confines path)
    (goal : List FileName) (node : Node) :
    (files t.world).locate .entry path ≠ .ok (.present goal node) := by
  obtain ⟨found, t₁, hgive, h⟩ := outcome_bind_eq_ok h
  rw [Registry.require, hp, outcome_give] at hgive
  cases hgive
  obtain ⟨⟨⟩, t₂, hobj, h⟩ := outcome_bind_eq_ok h
  obtain ⟨⟨⟩, t₃, hbin, h⟩ := outcome_bind_eq_ok h
  cases h
  have hremoved : ∀ name : FileName, name.Proper → ∀ {s t : Session σ},
      (x.perform p.id (.removeDirectoryTree (p.root.child name))).outcome s = (.ok (), t) →
        (files t.world).LeftOf (files s.world) ∧ (files t.world).Gone (p.root.child name) :=
    fun name hname _ _ h =>
      FileSystem.gone_of_removeTreeIfAny hname (hfiles.remove (act_eq_ok h))
  obtain ⟨-, hobjGone⟩ := hremoved (utf8 "obj") (by decide) hobj
  obtain ⟨hleft, hbinGone⟩ := hremoved (utf8 "bin") (by decide) hbin
  rcases hpath with hbelow | hbelow
  · exact (hobjGone.leftOf hleft).not_found hbelow goal node
  · exact hbinGone.not_found hbelow goal node

/-! ## Builds -/

/-- Everything that a build writes, it writes for a registered project, and below the directory of
its objects unless it links.  What linking writes lies below one of the two directories of the
project exactly when the id does not step up before its last slash; an id that starts at the root
is itself the path, up to the suffix.  And after the project is cleaned nothing is found below its
two directories. -/
theorem writes_confined (x : BuildSetup σ) (files : σ → FileSystem)
    (hfiles : x.backend.OnFiles files) (id : String) (s : Session σ) :
    (∃ entries, ((x.build id).outcome s).2.trace = s.trace ++ entries ∧
      ∀ q call, .call q call ∈ entries → ∃ p, x.registry.get? q = some p ∧
        ∀ path ∈ call.outputs,
          (call.linkStage? = none → path.StrictlyBelow p.objDir) ∧
          (call.linkStage?.isSome → p.HasOutput path ∧
            ((Path.ofString p.id).isRooted = false → (p.Confines path ↔ ¬ p.Climbs)) ∧
            ((Path.ofString p.id).isRooted = true → ∃ suffix, path = ⟨utf8 p.id ++ suffix⟩))) ∧
    ∀ p, x.registry.get? p.id = some p → ∀ t u, (x.clean p.id).outcome t = (.ok (), u) →
      ∀ path, p.Confines path → ∀ goal node,
        (files u.world).locate .entry path ≠ .ok (.present goal node) := by
  constructor
  · have hclosed : LinkClosed x.registry fun _ => True := fun _ _ _ _ _ => trivial
    have hframed := (x.runs_build id s).framed hclosed trivial
    obtain ⟨entries, htrace, hentries⟩ := hframed.trace
    refine ⟨entries, htrace, fun q call hcall => ?_⟩
    obtain ⟨p, hp, hmade⟩ := (hentries _ hcall).2 q call rfl
    refine ⟨p, hp, fun path hpath => ?_⟩
    rcases hmade.writes hfiles hpath with ⟨hunit, hbelow⟩ | ⟨hlink, houtput⟩
    · exact ⟨fun _ => hbelow, fun hlink => by simp [hunit] at hlink⟩
    · exact ⟨fun hunit => by simp [hunit] at hlink,
        fun _ => ⟨houtput, houtput.confined_iff, houtput.eq_of_rooted⟩⟩
  · intro p hp t u hclean path hpath goal node
    exact not_found_of_clean hfiles hp hclean hpath goal node

end BuildSetup

/-! ## Samples -/

namespace Sample

/-- A toolchain that writes empty files, in the tree of files that is its world. -/
def keeper : Backend FileSystem where
  perform call :=
    match call.outputs with
    | [] => FileSystem.performDirectoryCall call
    | path :: _ => atPath path (FileSystem.provideFile path [])
  generate p := do let _ ← p.generate "today"
  scan directory :=
    match discoverSources (viewerFiles [(utf8 "a.c", .file [])]) directory with
    | .ok sources => pure sources
    | .error stop => throw (.walkFault stop)

/-- The sample toolchain looks for sources in a tree of files, and removes directories from its
own. -/
theorem keeper_onFiles : keeper.OnFiles id where
  scan := by
    intro directory world sources after h
    have hproper : (viewerFiles [(utf8 "a.c", .file [])]).Proper :=
      proper_viewerFiles (Node.proper_singleton (by decide) (Node.proper_file []))
    refine ⟨viewerFiles [(utf8 "a.c", .file [])], hproper, ?_⟩
    cases hfound : discoverSources (viewerFiles [(utf8 "a.c", .file [])]) directory with
    | ok found =>
        simp only [keeper, hfound] at h
        cases h
        rfl
    | error stop =>
        simp only [keeper, hfound] at h
        cases h
  remove := by
    intro path world after h
    simp only [keeper, ToolCall.outputs, FileSystem.performDirectoryCall, atPath,
      EStateM.adaptExcept] at h
    split at h
    · cases h
    · next hremoved =>
        cases h
        exact hremoved

/-- The library with that toolchain. -/
def keeperSetup : BuildSetup FileSystem where
  registry := viewerRegistry
  backend := keeper

/-- The session after the library was built. -/
def keeperBuilt : Session FileSystem :=
  ((keeperSetup.build "viewer").outcome { world := viewerFiles [(utf8 "a.c", .file [])] }).2

/-- All that the build of the library writes lies below its two directories; the archive is there
afterwards, and it is gone when the library is cleaned. -/
theorem viewer_confined :
    keeper.OnFiles id ∧ viewerRegistry.get? viewer.id = some viewer ∧
    (∀ q call, .call q call ∈ keeperBuilt.trace → ∀ path ∈ call.outputs, viewer.Confines path) ∧
    keeperBuilt.world.isFile (Path.ofString "viewer/bin/viewer.lib") = true ∧
    ∃ cleaned, (keeperSetup.clean viewer.id).outcome keeperBuilt = (.ok (), cleaned) ∧
      ∀ goal node, cleaned.world.locate .entry (Path.ofString "viewer/bin/viewer.lib") ≠
        .ok (.present goal node) := by
  obtain ⟨⟨entries, htrace, hentries⟩, hcleaned⟩ :=
    BuildSetup.writes_confined keeperSetup id keeper_onFiles "viewer"
      { world := viewerFiles [(utf8 "a.c", .file [])] }
  have hclimbs : ¬ viewer.Climbs := by
    unfold Project.Climbs
    decide
  have hget : viewerRegistry.get? viewer.id = some viewer := by cbv
  obtain ⟨hfile, hok⟩ : keeperBuilt.world.isFile (Path.ofString "viewer/bin/viewer.lib") = true ∧
      ((keeperSetup.clean viewer.id).outcome keeperBuilt).1 = .ok () := by cbv
  rcases hclean : (keeperSetup.clean viewer.id).outcome keeperBuilt with ⟨result, cleaned⟩
  obtain rfl : result = .ok () := by rwa [hclean] at hok
  have hbelow : viewer.Confines (Path.ofString "viewer/bin/viewer.lib") :=
    .inr ⟨[utf8 "viewer.lib"], by simp, by decide⟩
  have hgone := hcleaned viewer hget keeperBuilt cleaned hclean _ hbelow
  refine ⟨keeper_onFiles, hget, fun q call hcall path hpath => ?_, hfile, cleaned, rfl, hgone⟩
  rw [keeperBuilt, htrace, List.nil_append] at hcall
  obtain ⟨p, hp, hall⟩ := hentries q call hcall
  obtain rfl : p = viewer := List.mem_singleton.1 (Registry.get?_eq_some_iff.1 hp).1
  obtain ⟨hunit, hlink⟩ := hall path hpath
  cases hstage : call.linkStage? with
  | none => exact .inl (hunit hstage)
  | some stage =>
      obtain ⟨-, hiff, -⟩ := hlink (by simp [hstage])
      exact (hiff (by decide)).2 hclimbs

/-- A manifest with an id that starts at the root. -/
def rootedDefinition : Definition where
  manifest := { id := some "/core", kind := some "lib" }
  root := Path.ofString "ws/core"
  manifestPath := Path.ofString "ws/core/manifest.json"

/-- The project that it defines. -/
def rootedCore : Project :=
  { id := "/core", kind := .library, root := Path.ofString "ws/core",
    manifestPath := some (Path.ofString "ws/core/manifest.json") }

/-- The manifest is accepted, and the archive of its project is written to the root. -/
theorem rooted_archive :
    ∃ r p, Registry.ofDefinitions [rootedDefinition] = .ok r ∧ r.get? "/core" = some p ∧
      .call "/core" (.archive [Path.ofString "ws/core/obj/__assets.s.o"]
        (Path.ofString "/core.lib")) ∈
        ((BuildSetup.build ⟨r, setup.backend, {}⟩ "/core").outcome { world := () }).2.trace ∧
      ¬ p.Confines (Path.ofString "/core.lib") := by
  refine ⟨⟨[rootedCore], by simp⟩, rootedCore, by cbv, by cbv, ?_, ?_⟩
  · exact List.mem_of_getElem? (i := 9) (by cbv)
  · have hpath : (Path.ofString "/core.lib").components = [.root, .name (utf8 "core.lib")] := by
      decide
    rintro (⟨names, -, h⟩ | ⟨names, -, h⟩)
    · rw [hpath, Project.components_objDir] at h
      cases h
    · rw [hpath, Project.components_binDir] at h
      cases h

end Sample

end NativeBuild
