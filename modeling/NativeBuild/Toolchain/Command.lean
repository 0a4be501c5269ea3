import NativeBuild.Host.Program
import NativeBuild.Toolchain.Call

/-!
# Toolchains of programs

The toolchain that runs the programs of a workspace's settings on a host.  A program is
given its flags from the settings and then what the call is about; it fails when it does
not start or does not end with status zero.

Main definitions:

- `ToolSettings.compileArguments` and its neighbours: the arguments of each tool.
- `ToolSettings.invocation?`: the program run that a call becomes.
- `commandBackend`: the toolchain.
-/

namespace NativeBuild

/-- A program with its arguments. -/
structure Invocation where
  program : String
  arguments : List String
deriving DecidableEq, Repr

namespace ToolSettings

/-! ## Arguments -/

/-- The arguments of the compiler: flags, those of strict projects, search paths,
definitions, source and object. -/
def compileArguments (tools : ToolSettings) (source object : Path)
    (includePaths : List Path) (defines : List String) (strict : Bool) : List String :=
  tools.cflags
    ++ (if strict then tools.strictFlags else [])
    ++ includePaths.map (fun path => "-I" ++ path.display)
    ++ defines.map (fun define => "-D" ++ define)
    ++ ["-c", source.display, "-o", object.display]

/-- The arguments of the assembler: flags, source and object. -/
def assembleArguments (tools : ToolSettings) (source object : Path) : List String :=
  tools.asflags ++ [source.display, "-o", object.display]

/-- The arguments of the archiver: flags, output and objects. -/
def archiveArguments (tools : ToolSettings) (objects : List Path) (output : Path) :
    List String :=
  tools.arflags ++ output.display :: objects.map Path.display

/-- The arguments of the linker: flags, script, output, objects and archives. -/
def linkArguments (tools : ToolSettings) (objects libraries : List Path)
    (output script : Path) : List String :=
  tools.ldflags ++ ["-T", script.display, "-o", output.display]
    ++ objects.map Path.display ++ libraries.map Path.display

/-- The arguments of the disassembler: flags and image. -/
def disassembleArguments (tools : ToolSettings) (image : Path) : List String :=
  tools.objdumpFlags ++ [image.display]

/-- The program run that a call becomes; calls about directories need none. -/
def invocation? (tools : ToolSettings) : ToolCall → Option Invocation
  | .makeDirectory _ => none
  | .removeDirectoryTree _ => none
  | .compile source object includePaths defines strict =>
    some ⟨tools.cc, tools.compileArguments source object includePaths defines strict⟩
  | .assemble source object => some ⟨tools.assembler, tools.assembleArguments source object⟩
  | .archive objects output => some ⟨tools.ar, tools.archiveArguments objects output⟩
  | .link objects libraries output script =>
    some ⟨tools.ld, tools.linkArguments objects libraries output script⟩
  | .disassemble image _ => some ⟨tools.objdump, tools.disassembleArguments image⟩

end ToolSettings

/-! ## Running -/

/-- Run a program and give what it wrote to its standard output. -/
def Host.run (host : Host) (invocation : Invocation) :
    EStateM BuildError FileSystem (List UInt8) := fun fs =>
  match host.start invocation.program invocation.arguments fs with
  | .error fault => .error (.toolSpawn invocation.program fault) fs
  | .ok (finished, fs) =>
    if finished.success then .ok finished.stdout fs
    else
      .error (.toolFailed invocation.program (finished.status.map Int.ofNat)
        (Text.trim (Text.decodeLossy finished.stderr))) fs

/-- Carry out a call on a host: what the disassembler writes goes to its output file. -/
def ToolSettings.perform (tools : ToolSettings) (host : Host) (call : ToolCall) :
    EStateM BuildError FileSystem Unit :=
  match tools.invocation? call with
  | none => FileSystem.performDirectoryCall call
  | some invocation => do
    let written ← host.run invocation
    match call with
    | .disassemble _ output => atPath output (FileSystem.writeFile output written)
    | _ => pure ()

/-- The toolchain of some settings on a host, with the build date for generated files. -/
def commandBackend (tools : ToolSettings) (host : Host) (date : String) :
    Backend FileSystem where
  perform := tools.perform host
  generate p := do let _ ← p.generate date
  scan := FileSystem.scanSources

end NativeBuild
