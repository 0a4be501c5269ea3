import NativeBuild.Shell.Text

/-!
# Patterns

The patterns that texts and names of files are compared with: `*` stands for any text, `?`
for one character, brackets hold the characters that one may be, and a backslash takes the
meaning of the next character away.

Main definitions:

- `classHolds?`: the named classes of characters.
- `bracketFront?`: what brackets say about a character.
- `fits`: a text fits a pattern.
-/

namespace NativeBuild.Shell

/-! ## Classes -/

/-- A character of punctuation. -/
def isPunctuation (c : Char) : Bool :=
  33 ≤ c.toNat && c.toNat ≤ 126 && !c.isAlphanum

/-- The tests that the names of classes stand for. -/
def characterClasses : List (String × (Char → Bool)) :=
  [("alnum", Char.isAlphanum), ("alpha", Char.isAlpha),
    ("blank", fun c => c == ' ' || c == '\t'),
    ("cntrl", fun c => c.toNat < 32 || c.toNat == 127), ("digit", Char.isDigit),
    ("graph", fun c => 33 ≤ c.toNat && c.toNat ≤ 126), ("lower", Char.isLower),
    ("print", fun c => 32 ≤ c.toNat && c.toNat ≤ 126), ("punct", isPunctuation),
    ("space", isSpace), ("upper", Char.isUpper),
    ("xdigit", fun c => (Text.hexValue? c).isSome)]

/-- The class whose name follows an opening bracket: whether a character belongs to it, and
what follows. -/
def classHolds? (c : Char) (cs : List Char) : Option (Bool × List Char) :=
  characterClasses.findSome? fun (name, holds) =>
    let mark := (":" ++ name ++ ":]").toList
    if mark.isPrefixOf cs then some (holds c, cs.drop mark.length) else none

/-! ## Brackets -/

/-- The place of a character in ranges. -/
def rangeKey (c : Char) : Int :=
  if c.toNat < 128 then c.toNat else c.toNat - 256

/-- A character lies between two others. -/
def inRange (low high c : Char) : Bool :=
  rangeKey low ≤ rangeKey c && rangeKey c ≤ rangeKey high

/-- What the characters up to a closing bracket say about a character, with what those
before them said, and what follows the bracket; none where no bracket closes.  The first of
them has been taken from the pattern. -/
def bracketItems? (c : Char) :
    Nat → Bool → Char → List Char → Option (Bool × List Char)
  | 0, _, _, _ => none
  | fuel + 1, found, first, rest =>
    let goOn (found : Bool) (rest : List Char) : Option (Bool × List Char) :=
      match rest with
      | [] => none
      | ']' :: rest => some (found, rest)
      | next :: rest => bracketItems? c fuel found next rest
    let single (low : Char) (rest : List Char) : Option (Bool × List Char) :=
      match rest with
      | '-' :: '\\' :: high :: rest => goOn (found || inRange low high c) rest
      | '-' :: high :: rest =>
        if high = ']' then goOn (found || low == c) ('-' :: high :: rest)
        else goOn (found || inRange low high c) rest
      | rest => goOn (found || low == c) rest
    if first = '[' then
      match classHolds? c rest with
      | some (holds, rest) => goOn (found || holds) rest
      | none => single first rest
    else if first = '\\' then
      match rest with
      | low :: rest => single low rest
      | [] => none
    else single first rest

/-- What the brackets after an opening one say about a character, and what follows them. -/
def bracketFront? (c : Char) (cs : List Char) : Option (Bool × List Char) :=
  let (inside, cs) :=
    match cs with
    | '!' :: cs => (false, cs)
    | cs => (true, cs)
  match cs with
  | [] => none
  | first :: rest =>
    (bracketItems? c (rest.length + 1) false first rest).map fun (found, rest) =>
      (found == inside, rest)

/-! ## Fitting -/

/-- A test holds for some end of a text. -/
def anyEnd (test : List Char → Bool) : List Char → Bool
  | [] => test []
  | c :: cs => test (c :: cs) || anyEnd test cs

/-- A text fits a pattern of at most so many characters. -/
def fitsWithin : Nat → List Char → List Char → Bool
  | _, [], cs => cs.isEmpty
  | 0, _ :: _, _ => false
  | fuel + 1, '*' :: pattern, cs =>
    anyEnd (fitsWithin fuel pattern) cs
  | fuel + 1, p :: pattern, cs =>
    match cs with
    | [] => false
    | c :: cs =>
      let literally (own : Char) (pattern : List Char) : Bool :=
        own == c && fitsWithin fuel pattern cs
      if p = '?' then fitsWithin fuel pattern cs
      else if p = '\\' then
        match pattern with
        | own :: pattern => literally own pattern
        | [] => literally p pattern
      else if p = '[' then
        match bracketFront? c pattern with
        | some (holds, pattern) => holds && fitsWithin fuel pattern cs
        | none => literally p pattern
      else literally p pattern

/-- A text fits a pattern. -/
def fits (pattern text : List Char) : Bool :=
  fitsWithin pattern.length pattern text

end NativeBuild.Shell
