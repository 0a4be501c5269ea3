/-!
# Kinds of projects

A project is a library, an application, the kernel or a loadable module; any other
name of a kind is unknown.  The kind decides what a project produces and how it is
linked.

Main results:

- Theorem `ofName_name`: a known kind is found under its name.
- Theorem `extension_inj`: known kinds have different extensions.
-/

namespace NativeBuild

/-- The kind of a project. -/
inductive ProjectKind where
  /-- A static library, linked into those that depend on it. -/
  | library
  | application
  | kernel
  /-- A loadable kernel module. -/
  | loadable
  /-- A kind whose name means nothing; never built. -/
  | unknown
deriving DecidableEq, Repr, Inhabited

/-- How the objects of a project become its output. -/
inductive LinkStrategy where
  /-- Archive the objects. -/
  | archive
  /-- Link objects and libraries with the application script. -/
  | application
  /-- Link with the kernel script, then disassemble the image. -/
  | kernelImage
  /-- There is no way yet. -/
  | unsupported
deriving DecidableEq, Repr

namespace ProjectKind

/-- The kinds that have a meaning. -/
def known : List ProjectKind :=
  [.library, .application, .kernel, .loadable]

/-- The name of a kind in manifests and generated headers. -/
def name : ProjectKind → String
  | .library => "lib"
  | .application => "app"
  | .kernel => "kernel"
  | .loadable => "module"
  | .unknown => "invalid"

/-- The kind with a name; a name that no known kind has is unknown. -/
def ofName (text : String) : ProjectKind :=
  (known.find? fun kind => kind.name == text).getD .unknown

/-- The extension of the output; unknown kinds produce nothing. -/
def extension? : ProjectKind → Option String
  | .library => some "lib"
  | .application => some "app"
  | .kernel => some "bin"
  | .loadable => some "mod"
  | .unknown => none

/-- How projects of the kind are linked. -/
def strategy : ProjectKind → LinkStrategy
  | .library => .archive
  | .application => .application
  | .kernel => .kernelImage
  | .loadable => .unsupported
  | .unknown => .unsupported

/-- The kind has a meaning. -/
def isKnown : ProjectKind → Bool
  | .unknown => false
  | _ => true

/-- Projects of the kind may be built. -/
def isBuildable (kind : ProjectKind) : Bool :=
  kind.isKnown

/-- A known kind is found under its name. -/
theorem ofName_name (kind : ProjectKind) : ofName kind.name = kind := by
  cases kind <;> decide

/-- A kind produces something exactly when it is known. -/
theorem isSome_extension? (kind : ProjectKind) : kind.extension?.isSome = kind.isKnown := by
  cases kind <;> rfl

/-- Known kinds have different extensions. -/
theorem extension_inj {a b : ProjectKind} (h : a.extension? = b.extension?) : a = b := by
  cases a <;> cases b <;> revert h <;> decide

end ProjectKind

end NativeBuild
