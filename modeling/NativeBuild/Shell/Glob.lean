import NativeBuild.FileSystem.Operations
import NativeBuild.Shell.Pattern

/-!
# Names of files by patterns

A pattern stands for the names of the files that fit it, directory by directory.  Names
that start with a full stop are found only by patterns that do.

Main definitions:

- `Glob`: a pattern cut into the parts that matter.
- `namesFor`: the names that a pattern stands for.
-/

namespace NativeBuild.Shell

/-- Characters without the backslashes that take meanings away. -/
def unescaped : List Char → List Char
  | '\\' :: c :: rest => c :: unescaped rest
  | c :: rest => c :: unescaped rest
  | [] => []

/-- A closing bracket comes before the next slash. -/
def hasClosingBracket : List Char → Bool
  | [] => false
  | '\\' :: c :: rest => c != '/' && closes rest
  | c :: rest => c != '/' && closes rest
where
  /-- A closing bracket is here, or comes before the next slash. -/
  closes : List Char → Bool
    | [] => false
    | ']' :: _ => true
    | rest => hasClosingBracket rest

/-- A pattern cut at slashes around its first part that stands for several names. -/
structure Glob where
  /-- What stands in front of that part. -/
  front : List Char
  part : List Char
  /-- What stands after the slash behind it. -/
  rest : Option (List Char)
deriving Repr

/-- Cut a pattern: what is in front, in reverse; the part so far, in reverse; whether the
part stands for several names; and the characters to come. -/
def cutGlob? : Nat → List Char → List Char → Bool → List Char → Option Glob
  | 0, _, _, _, _ => none
  | fuel + 1, front, part, several, cs =>
    let slash (taken after : List Char) : Option Glob :=
      if several then some ⟨front.reverse, part.reverse, some after⟩
      else cutGlob? fuel (taken ++ part ++ front) [] false after
    match cs with
    | [] => if several then some ⟨front.reverse, part.reverse, none⟩ else none
    | '/' :: rest => slash ['/'] rest
    | '\\' :: '/' :: rest => slash ['/'] rest
    | '\\' :: c :: rest => cutGlob? fuel front (c :: '\\' :: part) several rest
    | c :: rest =>
      let meaning :=
        c == '*' || c == '?'
          || (c == '[' && hasClosingBracket (if rest.head? = some '!' then rest.tail else rest))
      cutGlob? fuel front (c :: part) (several || meaning) rest

/-- The path of characters. -/
def pathOfChars (cs : List Char) : Path :=
  ⟨toBytes cs⟩

/-- The names in a directory. -/
def namesIn (fs : FileSystem) (directory : List Char) : List (List Char) :=
  let path := pathOfChars (if directory = [] then ['.'] else directory)
  match fs.locate .target path with
  | .ok (.present _ (.directory entries)) =>
    ['.'] :: ['.', '.'] :: entries.map fun entry => ofBytes entry.1
  | _ => []

/-- The names in a directory that fit a part. -/
def fittingNames (fs : FileSystem) (directory part : List Char) : List (List Char) :=
  let dotted := (unescaped part).head? == some '.'
  (namesIn fs directory).filter fun name =>
    (dotted || name.head? != some '.') && fits part name

/-- Something has the path. -/
def isThere (fs : FileSystem) (path : List Char) : Bool :=
  match fs.locate .entry (pathOfChars path) with
  | .ok (.present ..) => true
  | _ => false

/-- The names behind a front that a pattern stands for, through at most so many
directories. -/
def namesBehind (fs : FileSystem) : Nat → List Char → List Char → List (List Char)
  | 0, _, _ => []
  | fuel + 1, front, pattern =>
    match cutGlob? (pattern.length + 1) [] [] false pattern with
    | none =>
      let path := front ++ unescaped pattern
      if front ≠ [] ∧ isThere fs path then [path] else []
    | some glob =>
      let directory := front ++ unescaped glob.front
      (fittingNames fs directory glob.part).flatMap fun name =>
        match glob.rest with
        | none => [directory ++ name]
        | some rest => namesBehind fs fuel (directory ++ name ++ ['/']) rest

/-- The names that a pattern stands for, in order. -/
def namesFor (fs : FileSystem) (pattern : List Char) : List String :=
  ((namesBehind fs (pattern.length + 1) [] pattern).map String.ofList).mergeSort
    fun a b => decide (a ≤ b)

end NativeBuild.Shell
