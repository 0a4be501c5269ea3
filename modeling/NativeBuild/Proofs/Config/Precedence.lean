import NativeBuild.Proofs.Config.Layers
import NativeBuild.Proofs.Config.Upward

/-!
# Precedence of the settings

What a workspace is loaded with.  A setting is the environment's, if the environment may give it
and does, else that of the workspace file, else the default.  The settings of the file are checked
before the environment replaces any of them, so a blank program in the file is reported even where
a variable would replace it; after that the variables are checked.  What is left has no fault, so
the settings of a workspace always pass the check.

Main definitions:

- `Workspace.Outcome`: what loading gives, for the contents of the file over the defaults.

Main results:

- Theorem `exists_parent?_of_readText`: a file that can be read has a directory above it.
- Theorem `load_precedence`: what a workspace file, a directory or a lack of files is loaded as.
-/

namespace NativeBuild

open Toml (Value)

/-- A file that can be read has a directory above it. -/
theorem FileSystem.exists_parent?_of_readText {fs : FileSystem} {file : Path} {text : String}
    (h : fs.readText file = .ok text) : ∃ root, file.parent? = some root := by
  obtain ⟨goal, content, hlocate⟩ :
      ∃ goal content, fs.locate .target file = .ok (.present goal (.file content)) := by
    unfold readText at h
    split at h
    · next content hread =>
        unfold readFile at hread
        split at hread
        · next goal content' hlocate => exact ⟨goal, content', hlocate⟩
        all_goals cases hread
    · cases h
  cases hparent : file.parent? with
  | some root => exact ⟨root, rfl⟩
  | none =>
      rcases Path.empty_or_root_of_parent? hparent with hempty | ⟨hrooted, hsteps⟩
      · rw [locate, if_pos hempty] at hlocate
        cases hlocate
      · -- The root is a directory.
        have hleads := leads_of_steps hlocate
        rw [hsteps, start, if_pos hrooted] at hleads
        cases hleads with
        | here hat => cases hat

namespace Workspace

/-! ## Outcomes -/

/-- What loading gives for the contents of the file over the defaults.  The first fault of these is
reported, or else that of the environment; without faults there is a workspace, and each of its
settings is the environment's, if that gives it, or else that of the contents. -/
structure Outcome (env : Environment) (content : (k : Setting) → k.Content)
    (result : Except ConfigError Workspace) : Prop where
  invalid : ∀ field reason, result = .error (.invalidValue field reason) ↔
    (Setting.faults content ++ env.faults).head? = some (field, reason)
  loaded : (∃ w, result = .ok w) ↔ Setting.faults content ++ env.faults = []
  settings : ∀ w, result = .ok w → ∀ k : Setting, k.get w.settings = env.over content k

variable {fs : FileSystem} {env : Environment} {file : Path} {text : String} {document : Value}
  {written : Settings}

/-- Checked settings, with the programs that the environment gives. -/
theorem outcome_of_settings (env : Environment) (written : Settings)
    {make : Settings → Workspace} (hmake : ∀ settings, (make settings).settings = settings) :
    Outcome env (Setting.get written) (do
      written.validate
      let settings ← written.withEnvironment env
      return make settings) := by
  obtain ⟨replaced, hreplaced, hcontent⟩ := written.withEnvironment_eq env
  have hresult : (do
      written.validate
      let settings ← written.withEnvironment env
      return make settings) =
        (report (Setting.faults (Setting.get written) ++ env.faults)).map
          fun _ => make replaced := by
    rw [Settings.validate_eq, hreplaced, Settings.report_append]
    cases report (Setting.faults (Setting.get written)) with
    | error e => rfl
    | ok _ => cases report env.faults <;> rfl
  rw [hresult]
  cases hfaults : Setting.faults (Setting.get written) ++ env.faults with
  | nil =>
      refine ⟨?_, ?_, ?_⟩
      · simp [report, Except.map, hfaults]
      · simp [report, Except.map, hfaults]
      · rintro w hw k
        cases hw
        rw [hmake]
        exact hcontent k
  | cons fault faults =>
      refine ⟨?_, ?_, ?_⟩
      · simp [report, Except.map, hfaults, Prod.ext_iff]
      · simp [report, Except.map, hfaults]
      · rintro w hw
        cases hw

/-! ## Files -/

/-- A file whose document gives settings is loaded as these, if there is nothing wrong with them. -/
theorem settings_load_of_some (hread : fs.readText file = .ok text)
    (htoml : Toml.read text = some document) (hwritten : Settings.ofToml? document = some written) :
    Settings.load fs file = do
      written.validate
      return written := by
  unfold Settings.load readConfig
  rw [hread]
  simp only [Settings.read, htoml, Option.bind_some, hwritten, bind, Except.bind]

/-- A file whose document gives no settings is refused as malformed. -/
theorem settings_load_of_none (hread : fs.readText file = .ok text)
    (htoml : Toml.read text = some document) (hnone : Settings.ofToml? document = none) :
    Settings.load fs file = .error (.malformedToml file) := by
  unfold Settings.load readConfig
  rw [hread]
  simp only [Settings.read, htoml, Option.bind_some, hnone, bind, Except.bind]

/-- Loading a file that gives settings has the outcome of what is written in it. -/
theorem outcome_loadFile (hread : fs.readText file = .ok text)
    (htoml : Toml.read text = some document)
    (hwritten : Settings.ofToml? document = some written) :
    Outcome env (Setting.get written) (loadFile fs env file) := by
  obtain ⟨root, hroot⟩ := FileSystem.exists_parent?_of_readText hread
  have hload : loadFile fs env file = do
      written.validate
      let settings ← written.withEnvironment env
      return { settings, root, configFile := some file } := by
    unfold loadFile
    rw [settings_load_of_some hread htoml hwritten, hroot]
    cases written.validate <;> rfl
  rw [hload]
  exact outcome_of_settings env written fun _ => rfl

variable {start : Path}

/-- Loading from a start path has the outcome of what is written in the file that is found. -/
theorem outcome_load (hfile : findFile fs start = some file) (hread : fs.readText file = .ok text)
    (htoml : Toml.read text = some document)
    (hwritten : Settings.ofToml? document = some written) :
    Outcome env (Setting.get written) (load fs env start) := by
  have hload : load fs env start = do
      written.validate
      let settings ← written.withEnvironment env
      return { settings, root := file.parent?.getD start, configFile := some file } := by
    unfold load
    rw [hfile]
    simp only [settings_load_of_some hread htoml hwritten]
    cases written.validate <;> rfl
  rw [hload]
  exact outcome_of_settings env written fun _ => rfl

/-- There is nothing wrong with the default settings. -/
theorem validate_default : Settings.validate {} = .ok () := by
  rw [Settings.validate_eq, Settings.report_eq_ok_iff]
  decide +kernel

/-- Loading from a start path without a file has the outcome of the default settings. -/
theorem outcome_load_default (hnone : findFile fs start = none) :
    Outcome env (Setting.get {}) (load fs env start) := by
  have hload : load fs env start = do
      Settings.validate {}
      let settings ← Settings.withEnvironment env {}
      return { settings, root := start, configFile := none } := by
    unfold load
    rw [hnone, validate_default]
    rfl
  rw [hload]
  exact outcome_of_settings env {} fun _ => rfl

/-! ## The check -/

/-- Settings that pass the check still do with programs that the environment gives. -/
theorem validate_of_withEnvironment {settings : Settings} (hwritten : written.validate = .ok ())
    (henv : written.withEnvironment env = .ok settings) : settings.validate = .ok () := by
  obtain ⟨replaced, hreplaced, hcontent⟩ := written.withEnvironment_eq env
  rw [Settings.validate_eq, Settings.report_eq_ok_iff] at hwritten ⊢
  rw [hreplaced] at henv
  cases hfaults : report env.faults with
  | error e =>
      rw [hfaults] at henv
      cases henv
  | ok _ =>
      rw [hfaults] at henv
      cases henv
      rw [funext hcontent]
      exact Setting.faults_over hwritten (Settings.report_eq_ok_iff.1 hfaults)

/-- The settings of a file pass the check. -/
theorem validate_of_settings_load (h : Settings.load fs file = .ok written) :
    written.validate = .ok () := by
  unfold Settings.load at h
  cases hconfig : readConfig fs file with
  | error e => simp [hconfig, bind, Except.bind] at h
  | ok text =>
      cases hsettings : Settings.read text with
      | none => simp [hconfig, hsettings, bind, Except.bind] at h
      | some settings =>
          cases hvalid : settings.validate with
          | error e => simp [hconfig, hsettings, hvalid, bind, Except.bind] at h
          | ok _ =>
              simp only [hconfig, hsettings, hvalid, bind, Except.bind] at h
              cases h
              exact hvalid

/-- There is nothing wrong with the settings that are loaded from a file. -/
theorem validate_of_loadFile {w : Workspace} (h : loadFile fs env file = .ok w) :
    w.settings.validate = .ok () := by
  obtain ⟨written, hwritten, henv, -⟩ := loadFile_eq_ok_iff.1 h
  exact validate_of_withEnvironment (validate_of_settings_load hwritten) henv

/-- There is nothing wrong with the settings that are loaded from a start path. -/
theorem validate_of_load {w : Workspace} (h : load fs env start = .ok w) :
    w.settings.validate = .ok () := by
  rcases load_eq_ok_iff.1 h with ⟨file, written, -, hwritten, henv, -⟩ | ⟨-, henv, -⟩
  · exact validate_of_withEnvironment (validate_of_settings_load hwritten) henv
  · exact validate_of_withEnvironment validate_default henv

/-! ## Precedence -/

/-- What is loaded.  An unknown key in the workspace file is an error.  When the keys are known
and the values have the right types, loading the file, or a directory from which it is found, has
the outcome of the file's settings over the defaults; without a file, that of the defaults.  In
any case the settings that are loaded pass the check. -/
theorem load_precedence (fs : FileSystem) (env : Environment) :
    (∀ file text document, fs.readText file = .ok text → Toml.read text = some document →
      (¬ KnownKeys document → loadFile fs env file = .error (.malformedToml file)) ∧
      (WellTyped document → KnownKeys document →
        Outcome env (Setting.inFile document) (loadFile fs env file)) ∧
      ∀ start, findFile fs start = some file →
        (¬ KnownKeys document → load fs env start = .error (.malformedToml file)) ∧
        (WellTyped document → KnownKeys document →
          Outcome env (Setting.inFile document) (load fs env start))) ∧
    (∀ start, findFile fs start = none →
      Outcome env (Setting.get {}) (load fs env start)) ∧
    (∀ file w, loadFile fs env file = .ok w → w.settings.validate = .ok ()) ∧
    ∀ start w, load fs env start = .ok w → w.settings.validate = .ok () := by
  refine ⟨fun file text document hread htoml => ?_, fun start => outcome_load_default,
    fun file w => validate_of_loadFile, fun start w => validate_of_load⟩
  have hcontent : Setting.get (Settings.ofContent (Setting.inFile document)) =
      Setting.inFile document := funext (Settings.get_ofContent _)
  refine ⟨fun hunknown => ?_, fun htyped hknown => ?_, fun start hfile =>
    ⟨fun hunknown => ?_, fun htyped hknown => ?_⟩⟩
  · unfold loadFile
    rw [settings_load_of_none hread htoml (Settings.ofToml?_eq_none hunknown)]
    rfl
  · rw [← hcontent]
    exact outcome_loadFile hread htoml (Settings.ofToml?_of_knownKeys htyped hknown)
  · unfold load
    rw [hfile]
    simp only [settings_load_of_none hread htoml (Settings.ofToml?_eq_none hunknown)]
    rfl
  · rw [← hcontent]
    exact outcome_load hfile hread htoml (Settings.ofToml?_of_knownKeys htyped hknown)

end Workspace

/-! ## A sample -/

namespace Sample

open Text

/-- A workspace file with some of the settings. -/
def partialText : String :=
  "[projects]\nmanifest = \"p.json\"\n[toolchain]\ncc = \"clang\"\nar = \"llvm-ar\"\n"

/-- The settings of it. -/
def partialSettings : Settings where
  projects := { manifest := "p.json" }
  tools := { cc := "clang", ar := "llvm-ar" }

/-- A file with a blank program. -/
def blankText : String :=
  "[toolchain]\nld = \" \"\n"

/-- Both files in one directory. -/
def layeredFiles : FileSystem where
  root := [(utf8 "ws", .directory [
    (utf8 "blank.toml", .file (utf8 blankText)),
    (utf8 "kiln.toml", .file (utf8 partialText))])]
  cwd := [utf8 "ws"]

/-- Variables for the compiler and the linker, and one for the assembler that is no text. -/
def toolVariables : Environment :=
  [("KILN_CC", utf8 "gcc"), ("KILN_AS", [0xFF]), ("KILN_LD", utf8 "lld")]

/-- The compiler is that of the environment, the archiver that of the file and the assembler that
of the defaults; and a blank linker in a file is refused although a variable would replace it. -/
theorem layers_loaded :
    (∃ w, Workspace.load layeredFiles toolVariables (Path.ofString "/ws") = .ok w ∧
      w.settings.tools.cc = "gcc" ∧ w.settings.tools.ar = "llvm-ar" ∧
      w.settings.tools.assembler = "nasm" ∧ w.settings.projects.manifest = "p.json") ∧
    Workspace.loadFile layeredFiles toolVariables (Path.ofString "blank.toml") =
      .error (.invalidValue "toolchain.ld" "program cannot be empty") := by
  have hfile : Workspace.findFile layeredFiles (Path.ofString "/ws") =
      some (Path.ofString "/ws/kiln.toml") := by decide
  have hread : (layeredFiles.readText (Path.ofString "/ws/kiln.toml")).toOption =
      some partialText := by decide +kernel
  have hread' : (layeredFiles.readText (Path.ofString "blank.toml")).toOption = some blankText := by
    decide +kernel
  have hsettings : Settings.read partialText = some partialSettings := by decide +kernel
  have hsettings' : Settings.read blankText = some { tools := { ld := " " } } := by decide +kernel
  obtain ⟨document, htoml, htyped, hknown, hcontent⟩ := Settings.read_eq_some_iff.1 hsettings
  obtain ⟨document', htoml', htyped', hknown', hcontent'⟩ := Settings.read_eq_some_iff.1 hsettings'
  obtain ⟨hfiles, -⟩ := Workspace.load_precedence layeredFiles toolVariables
  obtain ⟨-, -, hfound⟩ := hfiles _ _ _ (ok_of_toOption hread) htoml
  obtain ⟨-, hblank, -⟩ := hfiles _ _ _ (ok_of_toOption hread') htoml'
  have hloaded := (hfound _ hfile).2 htyped hknown
  have hrefused := hblank htyped' hknown'
  rw [← funext hcontent] at hloaded
  rw [← funext hcontent'] at hrefused
  obtain ⟨w, hw⟩ := hloaded.loaded.2 (by decide +kernel)
  have hlayers := hloaded.settings w hw
  have hcompiler : toolVariables.text? "KILN_CC" = some "gcc" := by decide +kernel
  have hassembler : toolVariables.text? "KILN_AS" = none := by decide +kernel
  refine ⟨⟨w, hw, (hlayers (.program .compiler)).trans ?_, hlayers (.program .archiver),
    (hlayers (.program .assembler)).trans ?_, hlayers .manifest⟩,
    (hrefused.invalid _ _).2 (by decide +kernel)⟩
  · exact congrArg (Option.getD · "clang") hcompiler
  · exact congrArg (Option.getD · "nasm") hassembler

end Sample

end NativeBuild
