import Mathlib.Data.List.Basic
import NativeBuild.Config.Settings

/-!
# The layers of the settings

There are fifteen settings in three groups.  The value of each comes from three layers: the
defaults, over them what a document gives, and over both, for the programs of the tools, what the
environment gives.  A document gives its settings under two levels of keys; each level is a table,
or an array whose items stand for the keys in order.

Main definitions:

- `Setting`: the settings, with their groups, keys and contents.
- `Setting.inFile`: the content of a setting from the document, or else its default.
- `Environment.over`: contents with the programs that the environment gives.
- `WellTyped` and `KnownKeys`: documents whose values can be read, and whose keys are known.
- `Setting.faults` and `Environment.faults`: what is wrong with values, in the order of the
  checks.

Main results:

- Theorem `ofToml?_eq_some_iff`: which documents give settings, and which settings they give.
- Theorem `validate_eq`: the check reports the first fault of the settings.
- Theorem `withEnvironment_eq`: so do the overrides of the environment.
-/

namespace NativeBuild

open Toml (Value)

/-! ## The settings one by one -/

/-- The groups of settings. -/
inductive SettingGroup where
  | projects
  | toolchain
  | link
deriving DecidableEq, Repr

namespace SettingGroup

/-- The key of a group in a document. -/
def key : SettingGroup → String
  | .projects => "projects"
  | .toolchain => "toolchain"
  | .link => "link"

/-- The keys of the groups, in their order. -/
def allKeys : List String :=
  ["projects", "toolchain", "link"]

/-- The keys of the settings of a group, in their order. -/
def keys : SettingGroup → List String
  | .projects => ["search", "manifest"]
  | .toolchain =>
    ["cc", "cflags", "assembler", "asflags", "ld", "ldflags", "ar", "arflags", "objdump",
      "objdump_flags", "strict_flags"]
  | .link => ["application_script", "kernel_script"]

end SettingGroup

/-- The settings. -/
inductive Setting where
  | search
  | manifest
  | program (tool : Tool)
  | flags (tool : Tool)
  | strictFlags
  | applicationScript
  | kernelScript
deriving DecidableEq, Repr

namespace Setting

open Settings

/-- The group of a setting. -/
def group : Setting → SettingGroup
  | .search | .manifest => .projects
  | .program _ | .flags _ | .strictFlags => .toolchain
  | .applicationScript | .kernelScript => .link

/-- The key of a setting in its group. -/
def key : Setting → String
  | .search => "search"
  | .manifest => "manifest"
  | .program tool => tool.key
  | .flags .compiler => "cflags"
  | .flags .assembler => "asflags"
  | .flags .linker => "ldflags"
  | .flags .archiver => "arflags"
  | .flags .disassembler => "objdump_flags"
  | .strictFlags => "strict_flags"
  | .applicationScript => "application_script"
  | .kernelScript => "kernel_script"

/-- The key of a setting is one of its group's. -/
theorem key_mem_keys (k : Setting) : k.key ∈ k.group.keys := by
  cases k with
  | program tool => cases tool <;> decide
  | flags tool => cases tool <;> decide
  | _ => decide

/-- What a setting holds. -/
def Content : Setting → Type
  | .search => List Path
  | .manifest | .program _ => String
  | .flags _ | .strictFlags => List String
  | .applicationScript | .kernelScript => Path

/-- Read the content of a setting. -/
def read : (k : Setting) → Value → Option k.Content
  | .search => paths?
  | .manifest | .program _ => text?
  | .flags _ | .strictFlags => texts?
  | .applicationScript | .kernelScript => path?

/-- The content of a setting. -/
def get (settings : Settings) : (k : Setting) → k.Content
  | .search => settings.projects.search
  | .manifest => settings.projects.manifest
  | .program tool => settings.tools.program tool
  | .flags .compiler => settings.tools.cflags
  | .flags .assembler => settings.tools.asflags
  | .flags .linker => settings.tools.ldflags
  | .flags .archiver => settings.tools.arflags
  | .flags .disassembler => settings.tools.objdumpFlags
  | .strictFlags => settings.tools.strictFlags
  | .applicationScript => settings.link.applicationScript
  | .kernelScript => settings.link.kernelScript

end Setting

/-- The settings with the given contents. -/
def Settings.ofContent (content : (k : Setting) → k.Content) : Settings where
  projects :=
    { search := content .search
      manifest := content .manifest }
  tools :=
    { cc := content (.program .compiler)
      cflags := content (.flags .compiler)
      assembler := content (.program .assembler)
      asflags := content (.flags .assembler)
      ld := content (.program .linker)
      ldflags := content (.flags .linker)
      ar := content (.program .archiver)
      arflags := content (.flags .archiver)
      objdump := content (.program .disassembler)
      objdumpFlags := content (.flags .disassembler)
      strictFlags := content .strictFlags }
  link :=
    { applicationScript := content .applicationScript
      kernelScript := content .kernelScript }

/-- Settings with given contents hold these. -/
theorem Settings.get_ofContent (content : (k : Setting) → k.Content) (k : Setting) :
    k.get (ofContent content) = content k := by
  cases k with
  | program tool => cases tool <;> rfl
  | flags tool => cases tool <;> rfl
  | _ => rfl

/-! ## Documents -/

/-- The value under a key: the first of a table, or the item of an array at the key's place. -/
def lookUp? (keys : List String) (key : String) : Value → Option Value
  | .table fields => (fields.find? fun field => field.1 == key).map (·.2)
  | .array items => items[keys.idxOf key]?
  | _ => none

/-- A table, or an array that stands for one. -/
def IsKeyed : Value → Prop
  | .table _ | .array _ => True
  | _ => False

/-- A table has no other keys. -/
def HasOnly (keys : List String) : Value → Prop
  | .table fields => ∀ field ∈ fields, field.1 ∈ keys
  | _ => True

/-- The value of a group in a document; a missing group is an empty table. -/
def SettingGroup.value (document : Value) (g : SettingGroup) : Value :=
  (lookUp? allKeys g.key document).getD (.table [])

/-- The value of a setting in a document, if it is given there. -/
def Setting.value? (document : Value) (k : Setting) : Option Value :=
  lookUp? k.group.keys k.key (k.group.value document)

/-- A document with values of the right types: tables with groups and settings that can be
read. -/
structure WellTyped (document : Value) : Prop where
  keyed : IsKeyed document
  groups : ∀ g : SettingGroup, IsKeyed (g.value document)
  settings : ∀ (k : Setting) (value : Value), k.value? document = some value →
    (k.read value).isSome

/-- A document without unknown keys at either level. -/
structure KnownKeys (document : Value) : Prop where
  groups : HasOnly SettingGroup.allKeys document
  settings : ∀ g : SettingGroup, HasOnly g.keys (g.value document)

/-- The content of a setting from the document, or else its default. -/
def Setting.inFile (document : Value) (k : Setting) : k.Content :=
  ((k.value? document).bind k.read).getD (k.get {})

/-- The contents with the programs that the environment gives. -/
def Environment.over (env : Environment) (content : (k : Setting) → k.Content) :
    (k : Setting) → k.Content
  | .program tool => (env.text? tool.variableName).getD (content (.program tool))
  | k => content k

/-! ## Faults -/

/-- A list without values, by the field that it is in and by what is said of it. -/
def emptyFault (field reason : String) (values : List Path) : List (String × String) :=
  if values = [] then [(field, reason)] else []

/-- A value that is blank, likewise. -/
def blankFault (field reason value : String) : List (String × String) :=
  if Text.isBlank value then [(field, reason)] else []

/-- What is wrong with the contents of settings, in the order in which they are checked. -/
def Setting.faults (content : (k : Setting) → k.Content) : List (String × String) :=
  emptyFault "projects.search" "at least one search directory is required" (content .search) ++
  blankFault "projects.manifest" "manifest file name cannot be empty" (content .manifest) ++
  Tool.all.flatMap fun tool =>
    blankFault ("toolchain." ++ tool.key) Settings.emptyProgram (content (.program tool))

/-- What is wrong with the variable of a tool. -/
def Environment.toolFault (env : Environment) (tool : Tool) : List (String × String) :=
  ((env.text? tool.variableName).map
    (blankFault tool.variableName Settings.emptyProgram)).getD []

/-- What is wrong with the variables of the tools, in the order in which they are looked at. -/
def Environment.faults (env : Environment) : List (String × String) :=
  Tool.all.flatMap env.toolFault

section Faults

variable {content : (k : Setting) → k.Content} {env : Environment}

/-- There is nothing wrong with a list exactly when it is not empty. -/
theorem emptyFault_eq_nil_iff {field reason : String} {values : List Path} :
    emptyFault field reason values = [] ↔ values ≠ [] := by
  unfold emptyFault
  split <;> simp_all

/-- There is nothing wrong with a text exactly when it is not blank. -/
theorem blankFault_eq_nil_iff {field reason value : String} :
    blankFault field reason value = [] ↔ Text.isBlank value = false := by
  unfold blankFault
  split <;> simp_all

/-- There is nothing wrong with the settings exactly when there are search directories and neither
the name of manifests nor that of a tool is blank. -/
theorem Setting.faults_eq_nil_iff :
    Setting.faults content = [] ↔
      (content .search : List Path) ≠ [] ∧ Text.isBlank (content .manifest) = false ∧
        ∀ tool ∈ Tool.all, Text.isBlank (content (.program tool)) = false := by
  simp only [Setting.faults, List.append_eq_nil_iff, List.flatMap_eq_nil_iff, and_assoc]
  exact and_congr emptyFault_eq_nil_iff (and_congr blankFault_eq_nil_iff
    (forall₂_congr fun _ _ => blankFault_eq_nil_iff))

/-- There is nothing wrong with the environment exactly when no tool that it names is blank. -/
theorem Environment.faults_eq_nil_iff :
    env.faults = [] ↔ ∀ tool ∈ Tool.all, ∀ program, env.text? tool.variableName = some program →
      Text.isBlank program = false := by
  refine List.flatMap_eq_nil_iff.trans (forall₂_congr fun tool _ => ?_)
  unfold toolFault
  cases env.text? tool.variableName with
  | none => simp
  | some program => simp [blankFault_eq_nil_iff]

/-- Programs from variables without faults leave contents without faults. -/
theorem Setting.faults_over (hcontent : Setting.faults content = []) (henv : env.faults = []) :
    Setting.faults (env.over content) = [] := by
  obtain ⟨hsearch, hmanifest, hprograms⟩ := Setting.faults_eq_nil_iff.1 hcontent
  refine Setting.faults_eq_nil_iff.2 ⟨hsearch, hmanifest, fun tool htool => ?_⟩
  have hvariable := Environment.faults_eq_nil_iff.1 henv tool htool
  change Text.isBlank ((env.text? tool.variableName).getD (content (.program tool))) = false
  cases htext : env.text? tool.variableName with
  | none => exact hprograms tool htool
  | some program => exact hvariable program htext

end Faults

/-- The first fault, if there is one, is reported. -/
def report : List (String × String) → Except ConfigError Unit
  | [] => .ok ()
  | (field, reason) :: _ => .error (.invalidValue field reason)

/-! ## Reading documents -/

namespace Settings

/-- The values by their keys, when the value is a table with no other keys, or an array. -/
theorem exists_keyedValues?_iff {keys : List String} {value : Value} :
    (∃ fields, keyedValues? keys value = some fields) ↔ IsKeyed value ∧ HasOnly keys value := by
  cases value with
  | table fields => simp [keyedValues?, IsKeyed, HasOnly]
  | array items => simp [keyedValues?, IsKeyed, HasOnly]
  | _ => simp [keyedValues?, IsKeyed]

/-- Where items stand for keys by their places, the item of a key is the one at the key's place. -/
theorem find?_zip {keys : List String} {key : String} (hkey : key ∈ keys) (items : List Value) :
    ((keys.zip items).find? fun field => field.1 == key).map (·.2) = items[keys.idxOf key]? := by
  induction keys generalizing items with
  | nil => cases hkey
  | cons first keys ih =>
      cases items with
      | nil => simp
      | cons item items =>
          by_cases hfirst : first = key
          · simp [hfirst]
          · have hrest := (List.mem_cons.1 hkey).resolve_left (Ne.symm hfirst)
            simp [hfirst, ih hrest]

/-- In the fields of a table or an array, the value of a key is the one that is looked up for it. -/
theorem find?_keyedValues? {keys : List String} {key : String} {value : Value}
    {fields : List (String × Value)} (hkey : key ∈ keys)
    (h : keyedValues? keys value = some fields) :
    (fields.find? fun field => field.1 == key).map (·.2) = lookUp? keys key value := by
  unfold keyedValues? at h
  split at h
  · split at h
    · cases h
      rfl
    · cases h
  · cases h
    exact find?_zip hkey _
  · cases h

/-- A key that is missing has the default, and another one must be read. -/
theorem field?_eq_some_iff {α : Type} {fields : List (String × Value)} {key : String}
    {missing a : α} {read : Value → Option α} :
    field? fields key missing read = some a ↔
      (∀ value, (fields.find? fun field => field.1 == key).map (·.2) = some value →
        (read value).isSome) ∧
      a = (((fields.find? fun field => field.1 == key).map (·.2)).bind read).getD missing := by
  unfold field?
  cases fields.find? fun field => field.1 == key with
  | none => simp only [Option.some.injEq, Option.map_none, reduceCtorEq, false_implies,
      implies_true, Option.bind_none, Option.getD_none, true_and, eq_comm]
  | some field =>
      simp only [Option.map_some, Option.some.injEq, forall_eq', Option.bind_some]
      cases read field.2 with
      | none => simp
      | some a' => simp only [Option.some.injEq, Option.isSome_some, Option.getD_some, true_and,
          eq_comm]

/-- The values of a group by their keys hold the settings of the group. -/
def HoldsGroup (g : SettingGroup) (value : Value) (settings : Settings) : Prop :=
  ∃ fields, keyedValues? g.keys value = some fields ∧
    ∀ k : Setting, k.group = g →
      field? fields k.key (k.get {}) k.read = some (k.get settings)

variable {value : Value} {settings : Settings}

/-- The settings of projects are read exactly as their group says. -/
theorem projects?_eq_some_iff :
    projects? value = some settings.projects ↔ HoldsGroup .projects value settings := by
  simp only [projects?, bind, Option.bind_eq_some_iff]
  constructor
  · rintro ⟨fields, hfields, search, hsearch, manifest, hmanifest, heq⟩
    refine ⟨fields, hfields, fun k hk => ?_⟩
    obtain ⟨projects, tools, link⟩ := settings
    cases heq
    cases k <;> cases hk
    · exact hsearch
    · exact hmanifest
  · rintro ⟨fields, hfields, hread⟩
    exact ⟨fields, hfields, _, hread .search rfl, _, hread .manifest rfl, rfl⟩

/-- The settings of linking are read exactly as their group says. -/
theorem link?_eq_some_iff :
    link? value = some settings.link ↔ HoldsGroup .link value settings := by
  simp only [link?, bind, Option.bind_eq_some_iff]
  constructor
  · rintro ⟨fields, hfields, application, happlication, kernel, hkernel, heq⟩
    refine ⟨fields, hfields, fun k hk => ?_⟩
    obtain ⟨projects, tools, link⟩ := settings
    cases heq
    cases k <;> cases hk
    · exact happlication
    · exact hkernel
  · rintro ⟨fields, hfields, hread⟩
    exact ⟨fields, hfields, _, hread .applicationScript rfl, _, hread .kernelScript rfl, rfl⟩

/-- The settings of tools are read exactly as their group says. -/
theorem tools?_eq_some_iff :
    tools? value = some settings.tools ↔ HoldsGroup .toolchain value settings := by
  simp only [tools?, bind, Option.bind_eq_some_iff]
  constructor
  · rintro ⟨fields, hfields, cc, hcc, cflags, hcflags, assembler, hassembler, asflags, hasflags,
      ld, hld, ldflags, hldflags, ar, har, arflags, harflags, objdump, hobjdump, objdumpFlags,
      hobjdumpFlags, strictFlags, hstrictFlags, heq⟩
    refine ⟨fields, hfields, fun k hk => ?_⟩
    obtain ⟨projects, tools, link⟩ := settings
    cases heq
    cases k with
    | program tool => cases tool <;> assumption
    | flags tool => cases tool <;> assumption
    | strictFlags => exact hstrictFlags
    | _ => cases hk
  · rintro ⟨fields, hfields, hread⟩
    exact ⟨fields, hfields, _, hread (.program .compiler) rfl, _, hread (.flags .compiler) rfl, _,
      hread (.program .assembler) rfl, _, hread (.flags .assembler) rfl, _,
      hread (.program .linker) rfl, _, hread (.flags .linker) rfl, _,
      hread (.program .archiver) rfl, _, hread (.flags .archiver) rfl, _,
      hread (.program .disassembler) rfl, _, hread (.flags .disassembler) rfl, _,
      hread .strictFlags rfl, rfl⟩

/-- The settings that a group holds are those of its entries, over the defaults. -/
theorem holdsGroup_iff {g : SettingGroup} :
    HoldsGroup g value settings ↔
      IsKeyed value ∧ HasOnly g.keys value ∧ ∀ k : Setting, k.group = g →
        (∀ v, lookUp? g.keys k.key value = some v → (k.read v).isSome) ∧
        k.get settings = ((lookUp? g.keys k.key value).bind k.read).getD (k.get {}) := by
  constructor
  · rintro ⟨fields, hfields, hread⟩
    obtain ⟨hkeyed, honly⟩ := exists_keyedValues?_iff.1 ⟨fields, hfields⟩
    refine ⟨hkeyed, honly, fun k hk => ?_⟩
    rw [← find?_keyedValues? (hk ▸ k.key_mem_keys) hfields]
    exact field?_eq_some_iff.1 (hread k hk)
  · rintro ⟨hkeyed, honly, hvalues⟩
    obtain ⟨fields, hfields⟩ := exists_keyedValues?_iff.2 ⟨hkeyed, honly⟩
    refine ⟨fields, hfields, fun k hk => field?_eq_some_iff.2 ?_⟩
    rw [find?_keyedValues? (hk ▸ k.key_mem_keys) hfields]
    exact hvalues k hk

/-- A group that is missing is read as an empty table. -/
theorem field?_group {document : Value} {fields : List (String × Value)} {α : Type}
    (g : SettingGroup) {missing : α} (read : Value → Option α)
    (hfields : keyedValues? SettingGroup.allKeys document = some fields)
    (hmissing : read (.table []) = some missing) :
    field? fields g.key missing read = read (g.value document) := by
  have hkey : g.key ∈ SettingGroup.allKeys := by cases g <;> decide
  rw [SettingGroup.value, ← find?_keyedValues? hkey hfields, field?]
  cases fields.find? fun field => field.1 == g.key with
  | none => exact hmissing.symm
  | some field => rfl

/-- A document is read exactly when its keys are known and every group is read. -/
theorem ofToml?_eq_some_iff_holdsGroup {document : Value} :
    ofToml? document = some settings ↔
      (∃ fields, keyedValues? SettingGroup.allKeys document = some fields) ∧
        ∀ g : SettingGroup, HoldsGroup g (g.value document) settings := by
  have hvalues {fields : List (String × Value)}
      (hfields : keyedValues? SettingGroup.allKeys document = some fields) :
      field? fields "projects" {} projects? = projects? (SettingGroup.value document .projects) ∧
      field? fields "toolchain" {} tools? = tools? (SettingGroup.value document .toolchain) ∧
      field? fields "link" {} link? = link? (SettingGroup.value document .link) :=
    ⟨field?_group .projects projects? hfields rfl, field?_group .toolchain tools? hfields rfl,
      field?_group .link link? hfields rfl⟩
  simp only [ofToml?, bind, Option.bind_eq_some_iff]
  constructor
  · rintro ⟨fields, hfields, projects, hprojects, tools, htools, link, hlink, heq⟩
    refine ⟨⟨fields, hfields⟩, fun g => ?_⟩
    obtain ⟨hprojects', htools', hlink'⟩ := hvalues hfields
    cases heq
    cases g with
    | projects => exact projects?_eq_some_iff.1 (hprojects'.symm.trans hprojects)
    | toolchain => exact tools?_eq_some_iff.1 (htools'.symm.trans htools)
    | link => exact link?_eq_some_iff.1 (hlink'.symm.trans hlink)
  · rintro ⟨⟨fields, hfields⟩, hheld⟩
    obtain ⟨hprojects, htools, hlink⟩ := hvalues hfields
    exact ⟨fields, hfields, _, hprojects.trans (projects?_eq_some_iff.2 (hheld .projects)), _,
      htools.trans (tools?_eq_some_iff.2 (hheld .toolchain)), _,
      hlink.trans (link?_eq_some_iff.2 (hheld .link)), rfl⟩

/-- A document gives settings when its values have the right types and its keys are known, and
then each setting is that of the document, or else the default. -/
theorem ofToml?_eq_some_iff {document : Value} :
    ofToml? document = some settings ↔
      WellTyped document ∧ KnownKeys document ∧
        ∀ k : Setting, k.get settings = k.inFile document := by
  simp only [ofToml?_eq_some_iff_holdsGroup, exists_keyedValues?_iff, holdsGroup_iff]
  constructor
  · rintro ⟨⟨hkeyed, honly⟩, hheld⟩
    exact ⟨⟨hkeyed, fun g => (hheld g).1, fun k => ((hheld k.group).2.2 k rfl).1⟩,
      ⟨honly, fun g => (hheld g).2.1⟩, fun k => ((hheld k.group).2.2 k rfl).2⟩
  · rintro ⟨htyped, hknown, hsettings⟩
    refine ⟨⟨htyped.keyed, hknown.groups⟩, fun g => ⟨htyped.groups g, hknown.settings g, ?_⟩⟩
    rintro k rfl
    exact ⟨htyped.settings k, hsettings k⟩

/-- A text gives settings when the document that it holds does. -/
theorem read_eq_some_iff {text : String} :
    read text = some settings ↔
      ∃ document, Toml.read text = some document ∧ WellTyped document ∧ KnownKeys document ∧
        ∀ k : Setting, k.get settings = k.inFile document := by
  simp only [read, Option.bind_eq_some_iff, ofToml?_eq_some_iff]

/-- Such settings there are. -/
theorem ofToml?_of_knownKeys {document : Value} (htyped : WellTyped document)
    (hknown : KnownKeys document) :
    ofToml? document = some (ofContent (Setting.inFile document)) :=
  ofToml?_eq_some_iff.2 ⟨htyped, hknown, get_ofContent _⟩

/-- With an unknown key there are none. -/
theorem ofToml?_eq_none {document : Value} (hunknown : ¬ KnownKeys document) :
    ofToml? document = none :=
  Option.eq_none_iff_forall_ne_some.2 fun _ h => hunknown (ofToml?_eq_some_iff.1 h).2.1

/-! ## Checking -/

/-- Of some faults and others, the first is reported. -/
theorem report_append (faults others : List (String × String)) :
    report (faults ++ others) = report faults >>= fun _ => report others := by
  cases faults <;> rfl

/-- Nothing is reported exactly when there is no fault. -/
theorem report_eq_ok_iff {faults : List (String × String)} :
    report faults = .ok () ↔ faults = [] := by
  cases faults <;> simp [report]

/-- Refusing a blank text is reporting its fault. -/
theorem refuseBlank_eq (field reason value : String) :
    refuseBlank field reason value = report (blankFault field reason value) := by
  unfold refuseBlank blankFault
  split <;> rfl

/-- Reporting the faults of items in turn is reporting all of them. -/
theorem forM_report {α : Type} (faults : α → List (String × String)) (items : List α) :
    (items.forM fun item => report (faults item)) = report (items.flatMap faults) := by
  induction items with
  | nil => rfl
  | cons item items ih =>
      rw [List.flatMap_cons, report_append, ← ih]
      rfl

/-- The check reports the first fault of the settings. -/
theorem validate_eq (settings : Settings) :
    settings.validate = report (Setting.faults (Setting.get settings)) := by
  unfold validate Setting.faults
  simp only [refuseBlank_eq, forM_report, report_append, bind_assoc]
  simp only [Setting.get]
  by_cases hsearch : settings.projects.search = []
  · rw [if_pos hsearch, emptyFault, if_pos hsearch]
    rfl
  · rw [if_neg hsearch, emptyFault, if_neg hsearch]
    rfl

/-! ## Overriding -/

/-- The tools with the program that the environment names for one of them, blank or not. -/
def replaceTool (env : Environment) (tools : ToolSettings) (tool : Tool) : ToolSettings :=
  ((env.text? tool.variableName).map (tools.withProgram tool)).getD tools

/-- Overriding a tool is reporting the fault of the environment, and then replacing the tool. -/
theorem overrideTool_eq (env : Environment) (tools : ToolSettings) (tool : Tool) :
    overrideTool env tools tool =
      (report (env.toolFault tool)).map fun _ => replaceTool env tools tool := by
  unfold overrideTool Environment.toolFault replaceTool
  cases env.text? tool.variableName with
  | none => rfl
  | some program =>
      simp only [Option.map_some, Option.getD_some, refuseBlank_eq]
      cases report (blankFault tool.variableName emptyProgram program) <;> rfl

/-- Overriding tools in turn is reporting all their faults, and then replacing all of them. -/
theorem foldlM_overrideTool (env : Environment) (chosen : List Tool) (tools : ToolSettings) :
    chosen.foldlM (overrideTool env) tools =
      (report (chosen.flatMap env.toolFault)).map fun _ =>
        chosen.foldl (replaceTool env) tools := by
  induction chosen generalizing tools with
  | nil => rfl
  | cons tool chosen ih =>
      rw [List.foldlM_cons, overrideTool_eq, List.flatMap_cons, report_append, List.foldl_cons]
      cases report (env.toolFault tool) with
      | error e => rfl
      | ok _ => exact ih _

/-- Replacing a tool changes that tool only, and only if the environment names one. -/
theorem program_replaceTool (env : Environment) (tools : ToolSettings) (tool other : Tool) :
    (replaceTool env tools tool).program other =
      if tool = other then (env.text? other.variableName).getD (tools.program other)
      else tools.program other := by
  unfold replaceTool
  by_cases h : tool = other
  · subst h
    cases env.text? tool.variableName <;> simp
  · cases env.text? tool.variableName <;> simp [h]

/-- Replacing tools in turn changes each of them as the environment says, and no other. -/
theorem program_foldl_replaceTool (env : Environment) (chosen : List Tool) (tools : ToolSettings)
    (tool : Tool) :
    (chosen.foldl (replaceTool env) tools).program tool =
      if tool ∈ chosen then (env.text? tool.variableName).getD (tools.program tool)
      else tools.program tool := by
  induction chosen generalizing tools with
  | nil => rfl
  | cons first chosen ih =>
      rw [List.foldl_cons, ih, program_replaceTool]
      by_cases hfirst : first = tool
      · cases env.text? tool.variableName <;> simp [hfirst]
      · simp [hfirst, Ne.symm hfirst]

/-- Another program for a tool changes no other setting. -/
theorem get_withProgram {k : Setting} (hk : ∀ tool, k ≠ .program tool) (settings : Settings)
    (tool : Tool) (program : String) :
    k.get { settings with tools := settings.tools.withProgram tool program } = k.get settings := by
  cases k with
  | program other => exact absurd rfl (hk other)
  | flags other => cases tool <;> cases other <;> rfl
  | strictFlags => cases tool <;> rfl
  | _ => rfl

/-- Replacing tools changes no other setting. -/
theorem get_foldl_replaceTool {k : Setting} (hk : ∀ tool, k ≠ .program tool) (env : Environment)
    (chosen : List Tool) (settings : Settings) :
    k.get { settings with tools := chosen.foldl (replaceTool env) settings.tools } =
      k.get settings := by
  induction chosen generalizing settings with
  | nil => rfl
  | cons tool chosen ih =>
      have hrest := ih { settings with tools := replaceTool env settings.tools tool }
      refine hrest.trans ?_
      unfold replaceTool
      cases env.text? tool.variableName with
      | none => rfl
      | some program => exact get_withProgram hk settings tool program

/-- The overrides report the first fault of the environment; without one, they replace the
programs that it names. -/
theorem withEnvironment_eq (env : Environment) (settings : Settings) :
    ∃ replaced : Settings,
      settings.withEnvironment env = (report env.faults).map (fun _ => replaced) ∧
      ∀ k : Setting, k.get replaced = env.over (Setting.get settings) k := by
  refine ⟨{ settings with tools := Tool.all.foldl (replaceTool env) settings.tools }, ?_, ?_⟩
  · rw [withEnvironment, foldlM_overrideTool, ← Environment.faults]
    cases report env.faults <;> rfl
  · intro k
    cases k with
    | program tool =>
        refine (program_foldl_replaceTool env Tool.all settings.tools tool).trans (if_pos ?_)
        cases tool <;> decide
    | _ => exact get_foldl_replaceTool (by simp) env Tool.all settings

end Settings

end NativeBuild
