import NativeBuild.Shell.Input

/-!
# Reading words

A word is read character by character.  What a character means depends on the quotes it
stands in; braces, expressions and quotes may be nested, and every nesting has a layer.

Main definitions:

- `WordReading`: a word that is partly read.
- `readWord`: the parts of a word up to the character that ends it.
-/

namespace NativeBuild.Shell

/-! ## Characters in quotes -/

/-- What characters stand in. -/
inductive Quoting where
  | none
  | single
  | double
  | arithmetic
deriving DecidableEq, Repr

/-- What a character is in a word. -/
inductive CharClass where
  | plain
  | lineEnd
  | backslash
  | singleQuote
  | doubleQuote
  | endQuote
  | dollar
  | backquote
  | closingBrace
  | openingParen
  | closingParen
  /-- A character whose meaning the quotes take away. -/
  | shielded
  /-- A character that ends a word. -/
  | separator
deriving DecidableEq, Repr

/-- The characters that have a meaning in patterns and tildes. -/
def patternChars : List Char :=
  ['!', '*', '?', '[', '=', '~', ':', '/', '-', ']']

/-- What a character is outside quotes. -/
def plainClass (c : Char) : CharClass :=
  if c = '\n' then .lineEnd
  else if c = '\\' then .backslash
  else if c = '\'' then .singleQuote
  else if c = '"' then .doubleQuote
  else if c = '\x60' then .backquote
  else if c = '$' then .dollar
  else if c = '\x7d' then .closingBrace
  else if c ∈ ['<', '>', '(', ')', ';', '&', '|', ' ', '\t'] then .separator
  else .plain

/-- What a character is in single quotes. -/
def singleClass (c : Char) : CharClass :=
  if c = '\n' then .lineEnd
  else if c = '\'' then .endQuote
  else if c = '\\' ∨ c ∈ patternChars then .shielded
  else .plain

/-- What a character is in double quotes. -/
def doubleClass (c : Char) : CharClass :=
  if c = '\n' then .lineEnd
  else if c = '\\' then .backslash
  else if c = '"' then .endQuote
  else if c = '\x60' then .backquote
  else if c = '$' then .dollar
  else if c = '\x7d' then .closingBrace
  else if c ∈ patternChars then .shielded
  else .plain

/-- What a character is in an expression. -/
def arithmeticClass (c : Char) : CharClass :=
  if c = '\n' then .lineEnd
  else if c = '\\' then .backslash
  else if c = '\x60' then .backquote
  else if c = '$' then .dollar
  else if c = '\x7d' then .closingBrace
  else if c = '(' then .openingParen
  else if c = ')' then .closingParen
  else .plain

/-- A byte that never has a meaning, nor separates fields. -/
def isInert (c : Char) : Bool :=
  '\x81' ≤ c && c ≤ '\x88'

/-- What a character is. -/
def Quoting.classOf (quoting : Quoting) (c : Char) : CharClass :=
  if isInert c then .shielded
  else
    match quoting with
    | .none => plainClass c
    | .single => singleClass c
    | .double => doubleClass c
    | .arithmetic => arithmeticClass c

/-! ## Layers -/

/-- A layer of nesting in a word. -/
structure Layer where
  quoting : Quoting
  /-- What is read stands in double quotes, or in something that works like them. -/
  double : Bool := false
  /-- Double quotes inside braces. -/
  innerDouble : Bool := false
  /-- The layer is that of braces. -/
  ofBraces : Bool := false
  /-- How many braces are open. -/
  braces : Nat := 0
  /-- How many of the braces were opened in double quotes. -/
  doubleBraces : Nat := 0
  /-- How many parentheses of an expression are open. -/
  parens : Nat := 0
deriving Repr

/-- What is open in a word. -/
inductive Opening where
  | parameter (name : String) (operation : Operation) (orEmpty : Bool)
  | arithmetic
deriving Repr

/-- A word that is partly read: the parts of what was opened last, in reverse, and what is
open around it. -/
structure WordReading where
  layer : Layer
  below : List Layer := []
  parts : List Part := []
  around : List (Opening × List Part) := []
  /-- Something of the word is quoted. -/
  quoted : Bool := false

/-- What the reading of a word depends on. -/
structure WordSetting where
  /-- The word is the text of a document. -/
  document : Option Document := none
  /-- Expansions are not looked for: the word names the end of a document. -/
  literal : Bool := false
  /-- How the script of a substitution is read. -/
  script : Reader Script
  /-- How many steps the reading may take. -/
  steps : Nat

namespace WordReading

/-- The word with one more part. -/
def add (w : WordReading) (part : Part) : WordReading :=
  { w with parts := part :: w.parts }

/-- The word with another inner layer. -/
def withLayer (w : WordReading) (layer : Layer) : WordReading :=
  { w with layer }

/-- The word inside a new layer. -/
def push (w : WordReading) (layer : Layer) : WordReading :=
  { w with layer, below := w.layer :: w.below }

/-- The word outside its inner layer. -/
def pop (w : WordReading) : WordReading :=
  match w.below with
  | layer :: below => { w with layer, below }
  | [] => w

/-- The word with something open. -/
def «open» (w : WordReading) (opening : Opening) : WordReading :=
  { w with parts := [], around := (opening, w.parts) :: w.around }

/-- The word in which what was opened last is closed. -/
def close (w : WordReading) : WordReading :=
  match w.around with
  | (.parameter name operation orEmpty, parts) :: around =>
    { w with parts := .parameter name operation orEmpty w.parts.reverse :: parts, around }
  | (.arithmetic, parts) :: around =>
    { w with parts := .arithmetic w.parts.reverse :: parts, around }
  | [] => w

/-- The word after a double quote. -/
def toggle (w : WordReading) (marked : Bool) : WordReading :=
  let layer := w.layer
  let w := w.withLayer { layer with
    innerDouble := if layer.braces = 0 then layer.innerDouble else !layer.innerDouble }
  if marked then w.add .quote else w

end WordReading

/-! ## Parameters -/

/-- A sign that names a parameter. -/
def isSpecialSign (c : Char) : Bool :=
  c ∈ ['!', '$', '?', '#', '-', '*', '@'] || c.isDigit

/-- A test of the next character. -/
def holdsFor (test : Char → Bool) (c : Option Char) : Bool :=
  match c with
  | some c => test c
  | none => false

/-- Take the characters of which all satisfy a test, the first of which is already taken;
the character after them is taken too. -/
def takeName (steps : Nat) (test : Char → Bool) (first : Char) :
    Reader (String × Option Char) :=
  iterate steps (fun (cs : List Char) => do
    let c ← next
    match c with
    | some c => if test c then return .inl (c :: cs) else
        return .inr (String.ofList cs.reverse, some c)
    | none => return .inr (String.ofList cs.reverse, none)) [first]

/-- What is done with a parameter by the sign after its name; whether an empty value counts
as none; and the character after the sign if it is given back.  The name of the sign after
a percent or number sign tells whether the longest pattern is meant. -/
def readOperation (c : Option Char) : Reader (Operation × Bool × Bool) := do
  let simple (c : Option Char) : Option Operation :=
    match c with
    | some '\x7d' => some .value
    | some '-' => some .orElse
    | some '+' => some .ifSet
    | some '?' => some .orFail
    | some '=' => some .orAssign
    | _ => none
  match c with
  | some ':' =>
    let c ← next
    return ((simple c).getD .malformed, true, false)
  | some '%' => return (.trimEnd (← takeChar '%'), false, true)
  | some '#' => return (.trimStart (← takeChar '#'), false, true)
  | c => return ((simple c).getD .malformed, false, false)

/-- A parameter between braces: its name, what is done with it, whether an empty value
counts as none, and whether a pattern follows. -/
def readBraces (steps : Nat) : Reader (String × Operation × Bool × Bool) := do
  let first ← next
  match first with
  | some c =>
    if isNameStart c then
      let (name, c) ← takeName steps isNameChar c
      return (name, ← readOperation c)
    else if c.isDigit then
      let (name, c) ← takeName steps Char.isDigit c
      return (name, ← readOperation c)
    else if c = '\x7d' then
      putBack (some c)
      return ("", .malformed, false, false)
    else
      let second ← next
      if c = '#' ∧ holdsFor (fun d => d == '_' || d.isAlphanum) second then
        let d := second.getD '0'
        let (name, c) ← takeName steps (if d.isDigit then Char.isDigit else isNameChar) d
        putBack c
        return (name, if c = some '\x7d' then .length else .malformed, false, false)
      else if c = '#' then
        let third ← next
        if second = some '\x7d' ∨ third ≠ some '\x7d' then
          putBack third
          return ("#", ← readOperation second)
        else
          putBack third
          match second with
          | some sign =>
            if isSpecialSign sign then
              return (String.singleton sign, .length, false, false)
            else return ("", .malformed, false, false)
          | none => return ("", .malformed, false, false)
      else if isSpecialSign c then return (String.singleton c, ← readOperation second)
      else
        putBack second
        return ("", .malformed, false, false)
  | none => return ("", .malformed, false, false)

/-- A parameter without braces, whose name starts with a character. -/
def readBare (steps : Nat) (first : Char) : Reader String := do
  if isNameStart first then
    let (name, c) ← takeName steps isNameChar first
    putBack c
    return name
  else return String.singleton first

/-- The word with a parameter between braces open. -/
def WordReading.openBraces (w : WordReading) (name : String) (operation : Operation)
    (orEmpty pattern : Bool) : WordReading :=
  let quoting : Quoting :=
    if pattern then .none
    else if w.layer.quoting = .arithmetic then .double
    else w.layer.quoting
  let w :=
    if quoting ≠ w.layer.quoting ∨ w.layer.innerDouble then
      w.push { quoting, ofBraces := true, double := quoting != .none }
    else w
  let layer := w.layer
  (w.withLayer { layer with
    braces := layer.braces + 1
    doubleBraces := layer.doubleBraces + if layer.double then 1 else 0 }).open
      (.parameter name operation orEmpty)

/-! ## Substitutions -/

/-- The script between backquotes; of some characters a backslash takes the meaning. -/
def takeBackquoted (steps : Nat) (double : Bool) : Reader (List Char) :=
  iterate steps (fun (cs : List Char) => do
    match ← next with
    | none => malformed "EOF in backquote substitution"
    | some '\x60' => return .inr cs.reverse
    | some '\\' =>
      match ← nextRaw with
      | none => return .inl ('\\' :: cs)
      | some c =>
        if c ∈ ['\\', '\x60', '$'] ∨ (double ∧ c = '"') then return .inl (c :: cs)
        else return .inl (c :: '\\' :: cs)
    | some '\n' =>
      countLine
      return .inl ('\n' :: cs)
    | some c => return .inl (c :: cs)) []

/-- Read a script from a text of its own, whose lines nobody asks for.  A token that is to be
read once more comes in front of it. -/
def readApart (text : List Char) (script : Reader Script) : Reader Script := fun outer =>
  let token := if outer.again then outer.token else .newline
  match script { outer with text, inserted := [], line := 1, token, waiting := [] } with
  | .ok body inner =>
    .ok body { outer with
      documents := inner.documents, found := inner.found, again := false, aliasNext := false }
  | .error failed inner =>
    .error failed { inner with
      text := outer.text, inserted := outer.inserted, moreLines := outer.moreLines }

/-- Read a script up to a closing parenthesis. -/
def readEnclosed (script : Reader Script) (closing : Reader Unit) : Reader Script := do
  let waiting := (← get).waiting
  modify fun r => { r with waiting := [] }
  let body ← script
  closing
  modify fun r => { r with waiting }
  return body

/-! ## Steps -/

/-- The text of a document goes on: whether the line that comes is the one that ends it. -/
def endsDocument (document : Document) (c : Option Char) : Reader (Bool × Option Char) := do
  putBack c
  if document.stripped then
    modify fun r => r.withFront (r.front.dropWhile (· == '\t'))
  let r ← get
  let ended (rest : List Char) : Reading :=
    { r.withFront rest with line := r.line + 1, lineEnded := true }
  match document.ending with
  | none => return (false, ← next)
  | some ending =>
    if ending.isPrefixOf r.front then
      match r.front.drop ending.length with
      | [] =>
        set (ended [])
        return (true, none)
      | '\n' :: rest =>
        set (ended rest)
        return (true, none)
      | _ => return (false, ← next)
    else return (false, ← next)

/-- The word with what a dollar sign starts. -/
def readDollar (x : WordSetting) (closing : Reader Unit) (w : WordReading) :
    Reader WordReading := do
  let c ← next
  if x.literal then
    putBack c
    return w.add (.char '$')
  else
    match c with
    | some '(' =>
      if ← takeChar '(' then
        return (w.push { quoting := .arithmetic, double := true }).open .arithmetic
      else return w.add (.substitution (← readEnclosed x.script closing))
    | some '\x7b' =>
      let (name, operation, orEmpty, pattern) ← readBraces x.steps
      if operation = .value ∧ !orEmpty then
        return w.add (.parameter name .value false [])
      else return w.openBraces name operation orEmpty pattern
    | some c =>
      if isNameStart c || isSpecialSign c then
        return w.add (.parameter (← readBare x.steps c) .value false [])
      else
        putBack (some c)
        return w.add (.char '$')
    | none => return w.add (.char '$')

/-- The word after a backslash. -/
def readBackslash (x : WordSetting) (w : WordReading) : Reader WordReading := do
  match ← nextRaw with
  | none => return w.add (.shielded '\\')
  | some c =>
    let layer := w.layer
    let kept :=
      layer.double && c ∉ ['\\', '\x60', '$']
        && (c != '"' || (x.document.isSome && layer.braces == 0))
        && (c != '\x7d' || layer.braces == 0)
    let w := if kept then w.add (.shielded '\\') else w
    return { w.add (.shielded c) with quoted := true }

/-- The word after a character that closes quotes. -/
def closeQuotes (x : WordSetting) (w : WordReading) (c : Char) : WordReading :=
  let layer := w.layer
  if x.document.isSome ∧ layer.braces = 0 then w.add (.char c)
  else
    let w :=
      if layer.doubleBraces = 0 then
        w.withLayer { layer with quoting := .none, double := false }
      else w
    let w := { w with quoted := true }
    if c = '"' then w.toggle x.document.isNone
    else if x.document.isNone then w.add .quote
    else w

/-- The word after a closing brace. -/
def closeBrace (w : WordReading) : WordReading :=
  let layer := w.layer
  if !layer.innerDouble ∧ 0 < layer.braces then
    let layer := { layer with braces := layer.braces - 1 }
    let w :=
      if layer.braces = 0 ∧ layer.ofBraces then (w.withLayer layer).pop
      else w.withLayer { layer with doubleBraces := layer.doubleBraces - 1 }
    w.close
  else w.add (.char '\x7d')

/-- The word after a closing parenthesis in an expression. -/
def closeParen (w : WordReading) : Reader WordReading := do
  let layer := w.layer
  if 0 < layer.parens then
    return (w.withLayer { layer with parens := layer.parens - 1 }).add (.char ')')
  else if ← takeChar ')' then return w.pop.close
  else return w.add (.char ')')

/-- A word that is partly read, and the character to go on with. -/
abbrev WordPoint := WordReading × Option Char

/-- Go on behind a character. -/
def goOn (w : WordReading) : Reader (WordPoint ⊕ WordPoint) := do
  let c ← if w.layer.quoting = .single then nextRaw else next
  return .inl (w, c)

/-- Go on with a line of the text. -/
def startLine (x : WordSetting) (w : WordReading) (c : Option Char) : Reader WordPoint := do
  match x.document with
  | some document =>
    let (ended, c) ← endsDocument document c
    return (w, if ended then none else c)
  | none => return (w, c)

/-- Go on with one character of a word. -/
def wordStep (x : WordSetting) (closing : Reader Unit) (point : WordPoint) :
    Reader (WordPoint ⊕ WordPoint) := do
  let (w, c) := point
  match c with
  | none => return .inr (w, none)
  | some c =>
    let layer := w.layer
    match layer.quoting.classOf c with
    | .plain => goOn (w.add (.char c))
    | .shielded =>
      goOn (w.add (if x.document.isNone || layer.double || layer.braces != 0
        then .shielded c else .char c))
    | .lineEnd =>
      if layer.quoting = .none ∧ layer.braces = 0 then return .inr (w, some c)
      else
        countLine
        let w := w.add (.char c)
        let c ← if layer.quoting = .single then nextRaw else next
        return .inl (← startLine x w c)
    | .backslash => goOn (← readBackslash x w)
    | .singleQuote =>
      let w := w.withLayer { layer with quoting := .single }
      goOn (if x.document.isNone then w.add .quote else w)
    | .doubleQuote =>
      goOn ((w.withLayer { layer with quoting := .double, double := true }).toggle
        x.document.isNone)
    | .endQuote => goOn (closeQuotes x w c)
    | .dollar => goOn (← readDollar x closing w)
    | .closingBrace => goOn (closeBrace w)
    | .openingParen =>
      goOn ((w.withLayer { layer with parens := layer.parens + 1 }).add (.char c))
    | .closingParen => goOn (← closeParen w)
    | .backquote =>
      if x.literal then goOn (w.add (.char c))
      else
        let text ← takeBackquoted x.steps layer.double
        goOn (w.add (.substitution (← readApart text x.script)))
    | .separator =>
      if layer.braces = 0 then return .inr (w, some c) else goOn (w.add (.char c))

/-- Read a word that starts with a character: its parts, whether any of it is quoted, and
the character that ends it. -/
def readWord (x : WordSetting) (closing : Reader Unit) (quoting : Quoting)
    (first : Option Char) : Reader (Word × Bool × Option Char) := do
  let start : WordReading := { layer := { quoting, double := quoting == .double } }
  let (w, c) ← iterate x.steps (wordStep x closing) (← startLine x start first)
  let layer := w.layer
  if layer.quoting = .arithmetic then malformed "Missing '))'"
  else if layer.quoting ≠ .none ∧ x.document.isNone then malformed "Unterminated quoted string"
  else if layer.braces ≠ 0 then malformed "Missing '\x7d'"
  else return (w.parts.reverse, w.quoted, c)

end NativeBuild.Shell
