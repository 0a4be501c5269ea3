import NativeBuild.Host.Environment
import NativeBuild.Shell.Start

/-!
# Built-in programs

A small host of its own: the programs that short rehearsals of a build are scripted
with.  A name without a slash is looked up in the directories of the search path; a name
with a slash is a path, and of the files that paths lead to only the programs may be run.

A host is a parameter of everything else: what is proved of builds, of the toolchain and of the
command line holds for any host, and nothing of it depends on these programs or on the shell.

Main definitions:

- `Utility.program`: what a program does.
- `builtinHost`: the host.
-/

namespace NativeBuild

/-- The variables of the environment as the shell knows them. -/
def Environment.shellVariables (env : Environment) : List (String × String) :=
  env.map fun (name, bytes) => (Shell.ofText name, String.ofList (Shell.ofBytes bytes))

/-- What a program does that was started under a name. -/
def Utility.program (env : Environment) (name : String) : Utility → Program
  | .shell => Shell.shell env.shellVariables name
  | .succeed => fun _ fs => ({ status := some 0 }, fs)
  | .fail => fun _ fs => ({ status := some 1 }, fs)
  | .echo => fun arguments fs => ({ stdout := echoOutput (arguments.map Shell.ofText) }, fs)
  | .concatenate =>
    Shell.program env.shellVariables fun _ => Shell.concatenate (Shell.ofText name)

/-- The directories in which a host looks for programs when the environment names none. -/
def fallbackSearchPath : String :=
  "/bin:/usr/bin"

/-- The host with the built-in programs, in an environment. -/
def builtinHost (env : Environment) : Host where
  find fs name :=
    let path := ((env.get? "PATH").map Text.decodeLossy).getD fallbackSearchPath
    (findUtility fs.withSystem path name).map fun utility => utility.program env name

end NativeBuild
