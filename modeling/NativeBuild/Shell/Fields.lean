import NativeBuild.Shell.Text

/-!
# Fields

What an expansion gives is a row of cells, some stretches of which are split into fields.
Separators split; blanks among them at either end of a field do not count.

Main definitions:

- `Cell`: a character of an expansion.
- `Stretch`: cells that are split.
- `splitFields`: the fields of a row of cells.
-/

namespace NativeBuild.Shell

/-! ## Cells -/

/-- A cell of an expansion. -/
inductive Cell where
  /-- Quotes stood here. -/
  | mark
  /-- A character; a shielded one has no meaning in patterns. -/
  | char (c : Char) (shielded : Bool)
deriving DecidableEq, Repr, Inhabited

/-- The characters of cells. -/
def charsOf (cells : List Cell) : List Char :=
  cells.filterMap fun cell =>
    match cell with
    | .mark => none
    | .char c _ => some c

/-- The cells of characters that have no quotes. -/
def cellsOf (cs : List Char) : List Cell :=
  cs.map fun c => .char c false

/-- The pattern that cells stand for: shielded characters have a backslash in front, unless
one is there already. -/
def patternFrom : Bool → List Cell → List Char
  | _, [] => []
  | _, .mark :: rest => patternFrom true rest
  | free, .char c shielded :: rest =>
    if shielded then
      if free then '\\' :: c :: patternFrom true rest else c :: patternFrom true rest
    else c :: patternFrom (c != '\\') rest

/-- The pattern that cells stand for. -/
def patternOf (cells : List Cell) : List Char :=
  patternFrom true cells

/-! ## Stretches -/

/-- Cells that are split into fields, from one place up to another. -/
structure Stretch where
  start : Nat
  stop : Nat
  /-- Only the ends of arguments split. -/
  byArgument : Bool
deriving Repr, Inhabited

/-! ## Splitting -/

/-- The state of the splitting. -/
structure Splitting where
  /-- Where the field starts. -/
  start : Nat := 0
  /-- The fields so far, in reverse. -/
  fields : List (List Cell) := []
  /-- A blank has ended the last field. -/
  blank : Bool := false
  /-- How many fields may still be made; none if any number. -/
  left : Option Nat
  /-- Where the last field ends, if it has an end of its own. -/
  cut : Option Nat := none

/-- The character that marks the end of an argument. -/
def argumentEnd : Char := '\x00'

/-- A blank that does not count at the ends of fields. -/
def isDefaultSeparator (c : Char) : Bool :=
  c == ' ' || c == '\t' || c == '\n' || c == argumentEnd

/-- The state after the cell at a place; `separates` tells which characters split, and
`quiet` that blanks split like others. -/
def Splitting.step (cells : Array Cell) (separates : Char → Bool) (quiet : Bool)
    (s : Splitting) (place : Nat) : Splitting :=
  let (isSeparator, isBlank) :=
    match cells[place]? with
    | some (.char c _) => (separates c, separates c && isDefaultSeparator c)
    | _ => (false, false)
  if s.left = some 0 then
    if isBlank then { s with cut := s.cut.or (some place) }
    else
      { s with cut := if isSeparator && s.blank then s.cut else none, blank := false }
  else if s.blank then
    if isSeparator then { s with start := place + 1, blank := isBlank }
    else { s with start := place, blank := false }
  else if isSeparator then
    let blank := isBlank && !quiet
    if place = s.start ∧ blank then { s with start := place + 1 }
    else
      let left := s.left.map (· - 1)
      if left = some 0 then { s with left, cut := some place, blank }
      else
        { s with
          start := place + 1, left, blank
          fields := (cells.extract s.start place).toList :: s.fields }
  else s

/-- The state after the cells of the stretches. -/
def splitStretches (cells : Array Cell) (separators : String) :
    List Stretch → Bool → Splitting → Splitting
  | [], _, s => s
  | stretch :: rest, after, s =>
    let separates (c : Char) : Bool :=
      c == argumentEnd || (!stretch.byArgument && separators.toList.contains c)
    let places := (List.range (stretch.stop - stretch.start)).map (· + stretch.start)
    let s := places.foldl (Splitting.step cells separates (after || stretch.byArgument))
      { s with blank := false }
    splitStretches cells separators rest stretch.byArgument s

/-- The last stretch is split by arguments. -/
def endsByArgument (stretches : List Stretch) : Bool :=
  match stretches.getLast? with
  | some stretch => stretch.byArgument
  | none => false

/-- The fields of cells, at most so many. -/
def splitFields (separators : String) (limit : Option Nat) (cells : Array Cell)
    (stretches : List Stretch) : List (List Cell) :=
  let s := splitStretches cells separators stretches false { left := limit }
  let last := (cells.extract s.start (s.cut.getD cells.size)).toList
  let kept := endsByArgument stretches || !last.isEmpty
  (if kept then last :: s.fields else s.fields).reverse

end NativeBuild.Shell
