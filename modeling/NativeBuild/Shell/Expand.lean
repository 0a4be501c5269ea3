import NativeBuild.Shell.Arithmetic
import NativeBuild.Shell.Fields
import NativeBuild.Shell.Glob
import NativeBuild.Shell.Word

/-!
# Expansion

What the words of a script stand for: parameters, the output of scripts, numbers, home
directories, and then fields and names of files.

Main definitions:

- `Expanding`: what an expansion is for.
- `Expansion`: the cells so far, with the stretches that are split.
- `expandWord`: the cells of a word.
- `fieldsOf`, `textOf` and `patternTextOf`: fields, a text and a pattern from a word.
-/

namespace NativeBuild.Shell

/-- What an expansion is for. -/
structure Expanding where
  /-- The cells are split into fields. -/
  split : Bool := false
  /-- The cells are a pattern. -/
  pattern : Bool := false
  /-- A tilde in front stands for a home directory. -/
  tilde : Bool := false
  /-- So does one after a colon, and one after the first equals sign. -/
  assignment : Bool := false
  /-- The equals sign has been there. -/
  valued : Bool := false
  /-- The word stands in quotes. -/
  quoted : Bool := false
  /-- The word stands for a parameter that is not set, or is. -/
  inner : Bool := false

/-- Quotes and shields are noted. -/
def Expanding.notes (x : Expanding) : Bool :=
  x.split || x.pattern

/-- The cells of an expansion, and the stretches of them that are split. -/
structure Expansion where
  cells : Array Cell := #[]
  stretches : Array Stretch := #[]

namespace Expansion

/-- The number of cells. -/
def size (e : Expansion) : Nat :=
  e.cells.size

/-- The expansion with more cells. -/
def add (e : Expansion) (cells : List Cell) : Expansion :=
  { e with cells := cells.foldl Array.push e.cells }

/-- The expansion with a stretch from a place up to the end. -/
def mark (e : Expansion) (start : Nat) (byArgument : Bool := false) : Expansion :=
  { e with stretches := e.stretches.push ⟨start, e.size, byArgument⟩ }

/-- The cells with the stretches as a list. -/
def fields (e : Expansion) (separators : String) : List (List Cell) :=
  splitFields separators none e.cells e.stretches.toList

end Expansion

/-- How the output of a script is found. -/
abbrev Interpreter := Script → Act (List Char)

/-- How a word inside another one is expanded. -/
abbrev Expander := Expanding → Word → Expansion → Act Expansion

/-! ## Values -/

/-- The cells of a value. -/
def valueCells (x : Expanding) (value : List Char) : List Cell :=
  value.map fun c =>
    .char c (x.notes && x.quoted && (c == '\\' || patternChars.contains c))

/-- The letters of the options that are on, the last first. -/
def settingLetters (p : Process) : String :=
  String.ofList ((Setting.all.filter p.has).filterMap Setting.letter?).reverse

/-- What stands between arguments: the end of an argument where each is a field of its own,
nothing, or a character. -/
def argumentSeparator (p : Process) (x : Expanding) (name : String) : List Char :=
  let first : List Char :=
    match p.value? "IFS" with
    | some separators => separators.toList.take 1
    | none => [' ']
  if name = "@" ∧ x.quoted ∧ x.split then [argumentEnd]
  else if x.split ∧ !x.quoted then
    if (p.value? "IFS").isSome then [argumentEnd] else [' ']
  else first

/-- The value of a parameter, if it has one. -/
def parameterValue (p : Process) (x : Expanding) (name : String) : Option (List Char) :=
  if name = "@" ∨ name = "*" then
    let separator := argumentSeparator p x name
    some (List.intercalate separator (p.arguments.map (·.toList)))
  else
    let text : Option String :=
      if name = "$" then some (toString p.root)
      else if name = "?" then some (toString p.status)
      else if name = "#" then some (toString p.arguments.length)
      else if name = "!" then p.background.map toString
      else if name = "-" then some (settingLetters p)
      else
        match digits? name with
        | some 0 => some p.name
        | some n => p.arguments[n - 1]?
        | none => p.value? name
    text.map String.toList

/-! ## Trimming -/

/-- A text up to the end of an argument. -/
def firstArgument (cs : List Char) : List Char :=
  cs.takeWhile (· != argumentEnd)

/-- The places at which a value may be cut, in the order in which they are tried. -/
def cutPlaces (chars : List Char) (fromEnd : Bool) : List Nat :=
  if fromEnd then (List.range (chars.length + 1)).reverse
  else List.range ((firstArgument chars).length + 1)

/-- The cells of a value without what a pattern stands for at their end. -/
def trimEndCells (pattern : List Char) (longest : Bool) (value : List Cell) : List Cell :=
  let chars := charsOf value
  match (cutPlaces chars !longest).find? fun n =>
      fits pattern (firstArgument (chars.drop n)) with
  | some n => value.take n
  | none => value

/-- The cells of a value without what a pattern stands for at their start. -/
def trimStartCells (pattern : List Char) (longest : Bool) (value : List Cell) : List Cell :=
  let chars := charsOf value
  match (cutPlaces chars longest).find? fun n =>
      fits pattern (firstArgument (chars.take n)) with
  | some n => value.drop n
  | none => value

/-! ## Parameters -/

/-- A parameter that has no value, and the words that say so. -/
def unsetParameter {α : Type} (name : String) (orEmpty : Bool) (text : Option String) :
    Act α :=
  match text with
  | some text => fault s!"{name}: {text}"
  | none => fault (s!"{name}: parameter not set" ++ if orEmpty then " or null" else "")

/-- The expansion with the value of a parameter; it is split unless it stands in quotes. -/
def Expansion.addValue (e : Expansion) (p : Process) (x : Expanding) (name : String)
    (value : List Char) : Expansion :=
  let start := e.size
  let e := e.add (valueCells x value)
  if !x.quoted then e.mark start
  else if name = "@" ∧ p.arguments ≠ [] then e.mark start true
  else e

/-- The expansion with a parameter. -/
def expandParameter (inside : Expander) (x : Expanding) (name : String)
    (operation : Operation) (orEmpty : Bool) (word : Word) (e : Expansion) : Act Expansion := do
  let p ← self
  let found := parameterValue p x name
  let value? := if orEmpty ∧ found = some [] then none else found
  let required : Act (List Char) :=
    match value? with
    | some value => return value
    | none => if p.has .nounset then unsetParameter name false none else return []
  let inner : Expanding := { x with tilde := true, inner := true }
  let trimmed (trim : List Char → List Cell → List Cell) : Act Expansion := do
    let value ← required
    if value?.isNone then return e
    else
      let pattern ← inside { pattern := true, tilde := true } word {}
      let start := e.size
      let e := e.add (trim (patternOf pattern.cells.toList) (valueCells x value))
      if !x.quoted then return e.mark start
      else return if name = "@" ∧ p.arguments ≠ [] then e.mark start true else e
  match operation with
  | .malformed => fault "Bad substitution"
  | .value =>
    let value ← required
    return if value?.isSome then e.addValue p x name value else e
  | .orElse =>
    match value? with
    | some value => return e.addValue p x name value
    | none => inside inner word e
  | .ifSet =>
    match value? with
    | some _ => inside inner word e
    | none => return e.addValue p x name []
  | .orFail =>
    match value? with
    | some value => return e.addValue p x name value
    | none =>
      if word = [] then unsetParameter name orEmpty none
      else
        let text ← inside { tilde := true } word {}
        unsetParameter name false (some (String.ofList (charsOf text.cells.toList)))
  | .orAssign =>
    match value? with
    | some value => return e.addValue p x name value
    | none =>
      let text ← inside { tilde := true } word {}
      setVariable name (some (String.ofList (charsOf text.cells.toList)))
      let p ← self
      return e.addValue p x name ((parameterValue p x name).getD [])
  | .length =>
    let length := ((parameterValue p { x with split := false } name).getD (← required)).length
    return e.addValue p x "#" (toString length).toList
  | .trimEnd longest => trimmed (trimEndCells · longest)
  | .trimStart longest => trimmed (trimStartCells · longest)

/-! ## Home directories -/

/-- The name after a tilde, and the parts after it; none where something is quoted or
expanded in it. -/
def tildeName? (assignment : Bool) : Word → Option (String × Word)
  | [] => some ("", [])
  | .char c :: rest =>
    if c = '/' ∨ (assignment ∧ c = ':') then some ("", .char c :: rest)
    else (tildeName? assignment rest).map fun (name, rest) => (String.singleton c ++ name, rest)
  | _ :: _ => none

/-- The home directory that a tilde in front of a word stands for, and the rest. -/
def tildeFront? (p : Process) (x : Expanding) : Word → Option (String × Word)
  | .char '~' :: rest =>
    match tildeName? x.assignment rest with
    | none => none
    | some (name, after) =>
      let home := if name = "" then p.value? "HOME" else homeOf? name
      home.map fun home => (home, after)
  | _ => none

/-! ## Words -/

/-- The characters at the front that have no meaning of their own. -/
def plainRun (x : Expanding) : Word → List Char × Word
  | .char c :: rest =>
    let (cs, after) := plainRun x rest
    if x.assignment ∧ (c = ':' ∨ (c = '=' ∧ !x.valued)) then ([c], rest)
    else (c :: cs, after)
  | rest => ([], rest)

/-- The expansion with a word, of at most so many parts; `enclosed` tells that quotes are
open in the word, and `x.tilde` that a tilde in front has its meaning. -/
def expandParts (run : Interpreter) (inside : Expander) :
    Nat → Bool → Expanding → Word → Expansion → Act Expansion
  | 0, _, _, _, e => return e
  | fuel + 1, enclosed, x, word, e => do
    let quoted := x.quoted || enclosed
    let here : Expanding := { x with quoted, tilde := false }
    let later : Expanding := { x with tilde := false }
    let goOn := expandParts run inside fuel enclosed later
    let p ← self
    let home? := if x.tilde then tildeFront? p x word else none
    match home? with
    | some (home, rest) =>
      goOn rest (e.add (valueCells { x with quoted := true } home.toList))
    | none =>
      match word with
      | [] => return e
      | .char c :: rest =>
        let (run_, after) := plainRun x (.char c :: rest)
        let start := e.size
        let e := e.add (cellsOf run_)
        let e := if x.inner && !quoted then e.mark start else e
        let last := run_.getLast?
        let valued := x.valued || (x.assignment && last == some '=')
        let tilde := x.assignment && (last == some ':' || (last == some '=' && !x.valued))
        expandParts run inside fuel enclosed { later with valued, tilde } after e
      | .shielded c :: rest => goOn rest (e.add [.char c x.notes])
      | .quote :: rest =>
        match enclosed, rest with
        | false, .parameter "@" .value false _ :: .quote :: rest =>
          let all ← expandParameter inside { here with quoted := true } "@" .value false [] e
          goOn rest all
        | _, _ =>
          expandParts run inside fuel (!enclosed) later rest
            (if x.notes then e.add [.mark] else e)
      | .parameter name operation orEmpty inner :: rest =>
        goOn rest (← expandParameter inside here name operation orEmpty inner e)
      | .substitution body :: rest =>
        let output ← run body
        let output := (output.reverse.dropWhile (· == '\n')).reverse
        let start := e.size
        let e := e.add (valueCells here output)
        goOn rest (if quoted then e else e.mark start)
      | .arithmetic expression :: rest =>
        let text ← inside {} expression {}
        let n ← evaluate (String.ofList (countingBytes (charsOf text.cells.toList)))
        let start := e.size
        let e := e.add (valueCells here (toString n).toList)
        goOn rest (if quoted then e else e.mark start)

/-- The expansion with a word; words are at most so deep inside each other. -/
def expandNested (run : Interpreter) : Nat → Expander
  | 0, _, _, e => return e
  | depth + 1, x, word, e =>
    expandParts run (expandNested run depth) (2 * word.length + 2) false x word e

/-- More words inside each other than there are. -/
def maxDepth : Nat := Nat.pow 2 60

/-- The expansion of a word. -/
def expandWord (run : Interpreter) (x : Expanding) (word : Word) : Act Expansion :=
  expandNested run maxDepth x word {}

/-! ## What words become -/

/-- The text of a word. -/
def textOf (run : Interpreter) (x : Expanding) (word : Word) : Act String := do
  return String.ofList (charsOf (← expandWord run x word).cells.toList)

/-- The pattern of a word. -/
def patternTextOf (run : Interpreter) (word : Word) : Act (List Char) := do
  return patternOf (← expandWord run { pattern := true, tilde := true } word).cells.toList

/-- What a field stands for: the names of files that fit it, or itself. -/
def filesFor (p : Process) (fs : FileSystem) (field : List Cell) : List String :=
  let text := charsOf field
  let itself := [String.ofList text]
  if p.has .noglob || !text.any (· ∈ ['*', '?', '[']) then itself
  else
    match namesFor fs (patternOf field) with
    | [] => itself
    | names => names

/-- The fields of a word. -/
def fieldsOf (run : Interpreter) (word : Word) : Act (List String) := do
  let e ← expandWord run { split := true, tilde := true } word
  let p ← self
  let fs ← filesHere
  return (e.fields p.separators).flatMap (filesFor p fs)

end NativeBuild.Shell
