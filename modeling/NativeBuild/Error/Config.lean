import NativeBuild.FileSystem.Fault

/-!
# Configuration errors

What can be wrong with a workspace's configuration or with the manifests in it.

Main definitions:

- `ConfigError`: one thing that is wrong.
- `ConfigError.message` and `ConfigError.cause?`: its wording and what lies behind it.
-/

namespace NativeBuild

/-- What is wrong with a configuration. -/
inductive ConfigError where
  /-- The file or directory is missing. -/
  | notFound (path : Path)
  /-- A file cannot be read. -/
  | unreadable (fault : Fault)
  /-- The workspace file is no TOML, or its values have the wrong types. -/
  | malformedToml (file : Path)
  /-- A manifest is no JSON, or its values have the wrong types. -/
  | malformedJson (file : Path)
  /-- A search directory cannot be walked. -/
  | scan (directory : Path) (stop : WalkFault)
  /-- The configuration as a whole makes no sense. -/
  | invalid (reason : String)
  /-- One value makes no sense. -/
  | invalidValue (field reason : String)
deriving DecidableEq, Repr

/-- The wording of a configuration error. -/
def ConfigError.message : ConfigError → String
  | .notFound path => s!"Configuration file not found: {path.display}"
  | .unreadable fault => s!"Failed to read configuration file: {fault.message}"
  | .malformedToml file => s!"Invalid TOML syntax in {file.display}: malformed document"
  | .malformedJson file => s!"Invalid JSON in {file.display}: malformed document"
  | .scan directory stop => s!"Failed to scan {directory.display}: {stop.message}"
  | .invalid reason => s!"Invalid configuration: {reason}"
  | .invalidValue field reason => s!"Invalid value for '{field}': {reason}"

/-- The fault behind a configuration error, for those that only pass one on. -/
def ConfigError.cause? : ConfigError → Option Fault
  | .unreadable fault => some fault
  | _ => none

end NativeBuild
