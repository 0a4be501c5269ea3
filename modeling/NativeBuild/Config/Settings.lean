import NativeBuild.Error.Config
import NativeBuild.Host.Environment
import NativeBuild.Json.Value
import NativeBuild.Path.Component
import NativeBuild.Text.Blank
import NativeBuild.Toml.Document

/-!
# Workspace settings

The content of a workspace file: where projects are searched, which tools are used
and which link scripts.  Every value has a default; the file may replace any of them,
and environment variables may replace the programs.

Main definitions:

- `Settings`: the settings with their defaults.
- `Settings.ofToml?`: the settings that a document gives.
- `Settings.validate`: the check of a file's settings.
- `Settings.withEnvironment`: the settings with the programs that the environment names.
-/

namespace NativeBuild

/-! ## The settings -/

/-- The tools that a build runs. -/
inductive Tool where
  | compiler
  | assembler
  | linker
  | archiver
  | disassembler
deriving DecidableEq, Repr

namespace Tool

/-- The tools in the order in which they are checked. -/
def all : List Tool :=
  [.compiler, .assembler, .linker, .archiver, .disassembler]

/-- The key of a tool's program in a workspace file. -/
def key : Tool → String
  | .compiler => "cc"
  | .assembler => "assembler"
  | .linker => "ld"
  | .archiver => "ar"
  | .disassembler => "objdump"

/-- The environment variable that replaces a tool's program. -/
def variableName : Tool → String
  | .compiler => "KILN_CC"
  | .assembler => "KILN_AS"
  | .linker => "KILN_LD"
  | .archiver => "KILN_AR"
  | .disassembler => "KILN_OBJDUMP"

end Tool

/-- Where projects are searched. -/
structure ProjectSettings where
  /-- Directories, seen from the workspace's root. -/
  search : List Path := [Path.ofString "."]
  /-- The name of a manifest file. -/
  manifest : String := "manifest.json"
deriving DecidableEq, Repr, Inhabited

/-- The programs of the tools and the flags they are always given. -/
structure ToolSettings where
  cc : String := "i686-elf-gcc"
  cflags : List String :=
    ["-std=gnu11", "-MD", "-O2", "-ffreestanding", "-nostdlib", "-nostdinc", "-fno-pie",
      "-Wall", "-Wextra"]
  assembler : String := "nasm"
  asflags : List String := ["-f", "elf32"]
  ld : String := "i686-elf-ld"
  ldflags : List String := []
  ar : String := "i686-elf-ar"
  arflags : List String := ["rcs"]
  objdump : String := "i686-elf-objdump"
  objdumpFlags : List String := ["-Mintel", "-S"]
  /-- Further compiler flags of strict projects. -/
  strictFlags : List String := ["-Werror"]
deriving DecidableEq, Repr, Inhabited

/-- The program of a tool. -/
def ToolSettings.program (tools : ToolSettings) : Tool → String
  | .compiler => tools.cc
  | .assembler => tools.assembler
  | .linker => tools.ld
  | .archiver => tools.ar
  | .disassembler => tools.objdump

/-- The settings with another program for a tool. -/
def ToolSettings.withProgram (tools : ToolSettings) (tool : Tool) (program : String) :
    ToolSettings :=
  match tool with
  | .compiler => { tools with cc := program }
  | .assembler => { tools with assembler := program }
  | .linker => { tools with ld := program }
  | .archiver => { tools with ar := program }
  | .disassembler => { tools with objdump := program }

/-- The link scripts, seen from the workspace's root. -/
structure LinkSettings where
  applicationScript : Path := Path.ofString "common/userspace.ld"
  kernelScript : Path := Path.ofString "common/kernel.ld"
deriving DecidableEq, Repr, Inhabited

/-- The settings of a workspace. -/
structure Settings where
  projects : ProjectSettings := {}
  tools : ToolSettings := {}
  link : LinkSettings := {}
deriving DecidableEq, Repr, Inhabited

@[simp] theorem program_withProgram_same (tools : ToolSettings) (tool : Tool)
    (program : String) : (tools.withProgram tool program).program tool = program := by
  cases tool <;> rfl

@[simp] theorem program_withProgram_other (tools : ToolSettings) {tool other : Tool}
    (program : String) (h : tool ≠ other) :
    (tools.withProgram tool program).program other = tools.program other := by
  cases tool <;> cases other <;> first | rfl | exact absurd rfl h

/-! ## Reading a document -/

namespace Settings

open Toml (Value)

/-- The keyed values of a table that holds no other keys, or of an array whose items
stand for the keys in order. -/
def keyedValues? (keys : List String) : Value → Option (List (String × Value))
  | .table fields =>
    if fields.all fun field => keys.contains field.1 then some fields else none
  | .array items => some (keys.zip items)
  | _ => none

/-- Read the value of a key, or take the default where it is missing. -/
def field? {α : Type} (fields : List (String × Value)) (key : String) (missing : α)
    (read : Value → Option α) : Option α :=
  match fields.find? fun field => field.1 == key with
  | none => some missing
  | some field => read field.2

/-- The text of a string. -/
def text? : Value → Option String
  | .string text => some text
  | _ => none

/-- The texts of an array of strings. -/
def texts? : Value → Option (List String)
  | .array items => items.mapM text?
  | _ => none

/-- The path written in a string. -/
def path? (value : Value) : Option Path :=
  (text? value).map Path.ofString

/-- The paths of an array of strings. -/
def paths? (value : Value) : Option (List Path) :=
  (texts? value).map fun texts => texts.map Path.ofString

/-- The section `projects`. -/
def projects? (value : Value) : Option ProjectSettings := do
  let fields ← keyedValues? ["search", "manifest"] value
  let missing : ProjectSettings := {}
  return {
    search := ← field? fields "search" missing.search paths?
    manifest := ← field? fields "manifest" missing.manifest text? }

/-- The section `toolchain`. -/
def tools? (value : Value) : Option ToolSettings := do
  let fields ← keyedValues?
    ["cc", "cflags", "assembler", "asflags", "ld", "ldflags", "ar", "arflags", "objdump",
      "objdump_flags", "strict_flags"] value
  let missing : ToolSettings := {}
  return {
    cc := ← field? fields "cc" missing.cc text?
    cflags := ← field? fields "cflags" missing.cflags texts?
    assembler := ← field? fields "assembler" missing.assembler text?
    asflags := ← field? fields "asflags" missing.asflags texts?
    ld := ← field? fields "ld" missing.ld text?
    ldflags := ← field? fields "ldflags" missing.ldflags texts?
    ar := ← field? fields "ar" missing.ar text?
    arflags := ← field? fields "arflags" missing.arflags texts?
    objdump := ← field? fields "objdump" missing.objdump text?
    objdumpFlags := ← field? fields "objdump_flags" missing.objdumpFlags texts?
    strictFlags := ← field? fields "strict_flags" missing.strictFlags texts? }

/-- The section `link`. -/
def link? (value : Value) : Option LinkSettings := do
  let fields ← keyedValues? ["application_script", "kernel_script"] value
  let missing : LinkSettings := {}
  return {
    applicationScript := ← field? fields "application_script" missing.applicationScript path?
    kernelScript := ← field? fields "kernel_script" missing.kernelScript path? }

/-- The settings that a document gives. -/
def ofToml? (value : Value) : Option Settings := do
  let fields ← keyedValues? ["projects", "toolchain", "link"] value
  return {
    projects := ← field? fields "projects" {} projects?
    tools := ← field? fields "toolchain" {} tools?
    link := ← field? fields "link" {} link? }

/-- The settings that a text gives. -/
def read (text : String) : Option Settings :=
  (Toml.read text).bind ofToml?

/-! ## Checking -/

/-- Refuse a value that is blank. -/
def refuseBlank (field reason value : String) : Except ConfigError Unit :=
  if Text.isBlank value then .error (.invalidValue field reason) else .ok ()

/-- What is said of a program that is blank. -/
def emptyProgram : String :=
  "program cannot be empty"

/-- Check the settings of a file: something is searched, and no name is blank. -/
def validate (settings : Settings) : Except ConfigError Unit := do
  if settings.projects.search = [] then
    .error (.invalidValue "projects.search" "at least one search directory is required")
  refuseBlank "projects.manifest" "manifest file name cannot be empty"
    settings.projects.manifest
  Tool.all.forM fun tool =>
    refuseBlank ("toolchain." ++ tool.key) emptyProgram (settings.tools.program tool)

/-! ## The environment -/

/-- The tools with the program that the environment names for one of them. -/
def overrideTool (env : Environment) (tools : ToolSettings) (tool : Tool) :
    Except ConfigError ToolSettings :=
  match env.text? tool.variableName with
  | none => .ok tools
  | some program => do
    refuseBlank tool.variableName emptyProgram program
    return tools.withProgram tool program

/-- The settings with the programs that the environment names. -/
def withEnvironment (env : Environment) (settings : Settings) :
    Except ConfigError Settings := do
  let tools ← Tool.all.foldlM (overrideTool env) settings.tools
  return { settings with tools }

/-! ## Writing -/

/-- The text of a path in a written document. -/
def written (path : Path) : Json.Value :=
  .string path.display

/-- The settings as a JSON object with all its values. -/
def toJson (settings : Settings) : Json.Value :=
  .record [
    ("projects", .record [
      ("search", .array (settings.projects.search.map written)),
      ("manifest", .string settings.projects.manifest)]),
    ("toolchain", .record [
      ("cc", .string settings.tools.cc),
      ("cflags", .strings settings.tools.cflags),
      ("assembler", .string settings.tools.assembler),
      ("asflags", .strings settings.tools.asflags),
      ("ld", .string settings.tools.ld),
      ("ldflags", .strings settings.tools.ldflags),
      ("ar", .string settings.tools.ar),
      ("arflags", .strings settings.tools.arflags),
      ("objdump", .string settings.tools.objdump),
      ("objdump_flags", .strings settings.tools.objdumpFlags),
      ("strict_flags", .strings settings.tools.strictFlags)]),
    ("link", .record [
      ("application_script", written settings.link.applicationScript),
      ("kernel_script", written settings.link.kernelScript)])]

end Settings

end NativeBuild
