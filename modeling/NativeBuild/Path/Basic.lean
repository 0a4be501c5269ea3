import NativeBuild.Text.Utf8

/-!
# Paths as text

A path is a sequence of bytes, kept exactly as it was written: joining never
normalises, and equality of paths is equality of their bytes.  What a path means
is read off its pieces, the byte sequences between slashes.

Main results:

- Theorem `joinPieces_pieces`: a path is recovered from its pieces.
- Theorem `join_rooted`: joining with a rooted path gives that path.
-/

namespace NativeBuild

open Text

/-- The name of a directory entry: any bytes but a slash. -/
abbrev FileName := List UInt8

/-- A path, as the bytes it was written with. -/
structure Path where
  bytes : List UInt8
deriving DecidableEq, Repr, Inhabited

/-- The separator of a path's pieces. -/
def slash : UInt8 := 0x2F

/-- The byte of a full stop. -/
def dot : UInt8 := 0x2E

namespace Path

/-- The path written as a text. -/
def ofString (s : String) : Path :=
  ⟨utf8 s⟩

/-- The path shown as text; what is no UTF-8 shows as U+FFFD. -/
def display (p : Path) : String :=
  decodeLossy p.bytes

/-- The path as text, when it is UTF-8. -/
def text? (p : Path) : Option String :=
  decode? p.bytes

/-! ## Joining -/

/-- A path is rooted when it starts with a slash. -/
def isRooted (p : Path) : Bool :=
  p.bytes.head? == some slash

/-- The path `q` as seen from `p`: `q` itself when it is rooted, else `p`, a slash
where one is missing, and `q`. -/
def join (p q : Path) : Path :=
  if q.isRooted then q
  else if p.bytes = [] || p.bytes.getLast? == some slash then ⟨p.bytes ++ q.bytes⟩
  else ⟨p.bytes ++ slash :: q.bytes⟩

/-- The path of an entry of the directory `p`. -/
def child (p : Path) (name : FileName) : Path :=
  p.join ⟨name⟩

/-- The path of the entry of `p` with the given text as its name. -/
def joinText (p : Path) (name : String) : Path :=
  p.join (ofString name)

/-- The path with a text appended to its last name. -/
def withSuffix (p : Path) (suffix : String) : Path :=
  ⟨p.bytes ++ utf8 suffix⟩

/-- The path without the slashes at its end; the root stays as it is. -/
def withoutLastSlashes (p : Path) : Path :=
  match (p.bytes.reverse.dropWhile (· == slash)).reverse with
  | [] => p
  | bytes => ⟨bytes⟩

/-- Joining with a rooted path gives that path. -/
theorem join_rooted (p : Path) {q : Path} (h : q.isRooted = true) : p.join q = q := by
  simp [join, h]

@[simp] theorem bytes_withSuffix (p : Path) (suffix : String) :
    (p.withSuffix suffix).bytes = p.bytes ++ utf8 suffix := rfl

/-! ## Pieces -/

/-- The byte sequences between slashes; a path without slashes is one piece. -/
def pieces : List UInt8 → List FileName
  | [] => [[]]
  | b :: bs =>
    if b = slash then [] :: pieces bs
    else
      match pieces bs with
      | [] => [[b]]
      | piece :: rest => (b :: piece) :: rest

/-- The pieces with a slash between each two. -/
def joinPieces : List FileName → List UInt8
  | [] => []
  | [piece] => piece
  | piece :: next :: rest => piece ++ slash :: joinPieces (next :: rest)

/-- The last piece that is not empty is a full stop. -/
def endsInDot (p : Path) : Bool :=
  ((pieces p.bytes).filter (· != [])).getLast? == some [dot]

/-- Every text has a piece. -/
theorem pieces_ne_nil (bs : List UInt8) : pieces bs ≠ [] := by
  cases bs with
  | nil => simp [pieces]
  | cons b bs =>
    simp only [pieces]
    split
    · simp
    · split <;> simp

/-- A path is recovered from its pieces. -/
theorem joinPieces_pieces (bs : List UInt8) : joinPieces (pieces bs) = bs := by
  induction bs with
  | nil => rfl
  | cons b bs ih =>
    simp only [pieces]
    split
    · rename_i h
      subst h
      cases hp : pieces bs with
      | nil => exact absurd hp (pieces_ne_nil bs)
      | cons piece rest => simp [joinPieces, ← hp, ih]
    · cases hp : pieces bs with
      | nil => exact absurd hp (pieces_ne_nil bs)
      | cons piece rest =>
        rw [hp] at ih
        cases rest with
        | nil => simpa [joinPieces] using ih
        | cons next rest => simpa [joinPieces] using ih

end Path

end NativeBuild
