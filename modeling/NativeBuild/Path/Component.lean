import NativeBuild.Path.Basic

/-!
# Paths by components

What a path names is decided by its components: the root or a leading `.`, then
every piece that is neither empty nor `.`.  Equality by components, the order of
paths, parents, extensions and the stripping of a prefix all read this list.

Main definitions:

- `Path.components`: the components of a path.
- `Path.same` and `Path.le`: equality and order by components.
- `Path.ancestors` and `Path.parent?`: the directories above, as written.
- `Path.stripPrefix?`: the rest of a path below a directory, as written.
-/

namespace NativeBuild

/-! ## Components -/

/-- One step of a path. -/
inductive Component where
  /-- The root directory, at the front of a rooted path. -/
  | root
  /-- A leading `.`. -/
  | current
  /-- The step `..`. -/
  | parent
  /-- A step into the entry of that name. -/
  | name (bytes : FileName)
deriving DecidableEq, Repr

/-- The place of a component in the order: the root, then `.`, then `..`, then the
names by their bytes. -/
def Component.sortKey : Component → List UInt8
  | .root => [0]
  | .current => [1]
  | .parent => [2]
  | .name bytes => 3 :: bytes

/-- Different components stand at different places. -/
theorem Component.sortKey_inj {a b : Component} : a.sortKey = b.sortKey ↔ a = b := by
  cases a <;> cases b <;> simp [Component.sortKey]

namespace Path

/-- What a path's pieces start from. -/
inductive Anchor where
  /-- The root directory. -/
  | root
  /-- A leading `.`. -/
  | current
  /-- Nothing: the path starts with its first piece. -/
  | none
deriving DecidableEq, Repr

/-- The component that an anchor stands for, if any. -/
def Anchor.components : Anchor → List Component
  | .root => [.root]
  | .current => [.current]
  | .none => []

/-- A piece that names nothing: an empty one or `.`. -/
def isTrivial (piece : FileName) : Bool :=
  piece == [] || piece == [dot]

/-- The component that a piece after the anchor stands for, if any. -/
def component? (piece : FileName) : Option Component :=
  if isTrivial piece then none
  else if piece = [dot, dot] then some .parent
  else some (.name piece)

/-- The anchor of a path and the pieces after it. -/
def parts (p : Path) : Anchor × List FileName :=
  match pieces p.bytes with
  | [] => (.none, [])
  | piece :: rest =>
    if piece = [] then if rest = [] then (.none, []) else (.root, rest)
    else if piece = [dot] then (.current, rest)
    else (.none, piece :: rest)

/-- The path with the given anchor and pieces. -/
def ofParts : Anchor → List FileName → Path
  | .root, body => ⟨slash :: joinPieces body⟩
  | .current, body => ⟨joinPieces ([dot] :: body)⟩
  | .none, body => ⟨joinPieces body⟩

/-- The components of a path. -/
def components (p : Path) : List Component :=
  p.parts.1.components ++ p.parts.2.filterMap component?

/-- Two paths are the same when their components are. -/
def same (p q : Path) : Bool :=
  p.components == q.components

/-- Two paths are the same exactly when they have the same components. -/
theorem same_iff {p q : Path} : p.same q = true ↔ p.components = q.components := by
  simp [same]

/-- A path is the same as itself. -/
theorem same_refl (p : Path) : p.same p = true := by
  simp [same]

/-! ## Order -/

/-- The list by which paths are ordered. -/
def sortKey (p : Path) : List (List UInt8) :=
  p.components.map Component.sortKey

/-- The order of paths: by components, a shorter list first. -/
def le (p q : Path) : Bool :=
  decide (p.sortKey ≤ q.sortKey)

/-- A path comes before another one by its list. -/
theorem le_iff {p q : Path} : p.le q = true ↔ p.sortKey ≤ q.sortKey := by
  simp [le]

/-- Paths that stand at the same place in the order are the same. -/
theorem same_iff_sortKey {p q : Path} : p.same q = true ↔ p.sortKey = q.sortKey := by
  rw [same_iff, sortKey, sortKey]
  constructor
  · intro h; rw [h]
  · intro h
    exact (List.map_inj_right (fun _ _ e => Component.sortKey_inj.1 e)).1 h

/-! ## Parents -/

/-- Pieces without the trivial ones at their end. -/
def trimEnd (body : List FileName) : List FileName :=
  (body.reverse.dropWhile isTrivial).reverse

/-- The directories above a path whose pieces are given last first: each is the
path up to one piece, less the trivial pieces before the cut. -/
def above (anchor : Anchor) : List FileName → List Path
  | [] => if anchor = .current then [⟨[]⟩] else []
  | piece :: before =>
    if isTrivial piece then above anchor before
    else ofParts anchor (before.dropWhile isTrivial).reverse :: above anchor before

/-- A path and the directories above it, nearest first, as far as its text goes. -/
def ancestors (p : Path) : List Path :=
  p :: above p.parts.1 p.parts.2.reverse

/-- The directory above a path; the root and the empty path have none. -/
def parent? (p : Path) : Option Path :=
  p.ancestors.tail.head?

/-! ## Last names -/

/-- The last component of a path, when it is a name. -/
def fileName? (p : Path) : Option FileName :=
  match p.components.getLast? with
  | some (.name bytes) => some bytes
  | _ => none

/-- What follows the last full stop of a name that does not only start with one. -/
def extensionOf? (name : FileName) : Option (List UInt8) :=
  let after := (name.reverse.takeWhile (· != dot)).reverse
  if after.length + 1 < name.length then some after else none

/-- The extension of a path's last name. -/
def extension? (p : Path) : Option (List UInt8) :=
  p.fileName?.bind extensionOf?

/-! ## Stripping a prefix -/

/-- Pieces without the first `n` that stand for a component. -/
def dropComponents : Nat → List FileName → List FileName
  | 0, body => body.dropWhile isTrivial
  | _, [] => []
  | n + 1, piece :: body =>
    if isTrivial piece then dropComponents (n + 1) body else dropComponents n body

/-- The path as written, without the trivial pieces at its end. -/
def trimmed (p : Path) : Path :=
  ofParts p.parts.1 (trimEnd p.parts.2)

/-- What is left of `p` below the directory `base`; none when `base` is no prefix
of `p` by components.  Below an empty path, which has none, all of `p` is left. -/
def stripPrefix? (p base : Path) : Option Path :=
  if base.components = [] then some p.trimmed
  else if base.components.isPrefixOf p.components then
    some ⟨joinPieces (trimEnd
      (dropComponents (base.components.length - p.parts.1.components.length) p.parts.2))⟩
  else none

end Path

end NativeBuild
