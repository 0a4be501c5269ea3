import NativeBuild.Json.Value
import NativeBuild.Text.Hexadecimal

/-!
# Reading JSON

A strict reader: no comments, no trailing commas, nothing after the document but
blanks.  Nesting is not limited.

Main definitions:

- `Json.read`: the value that a text holds, if it holds one.
-/

namespace NativeBuild.Json

/-! ## Blanks and words -/

/-- The blanks between the tokens of a document. -/
def isBlank (c : Char) : Bool :=
  c == ' ' || c == '\n' || c == '\t' || c == '\r'

/-- What follows the blanks. -/
def skipBlanks (cs : List Char) : List Char :=
  cs.dropWhile isBlank

/-- What follows a word, when the text starts with it. -/
def afterWord : List Char → List Char → Option (List Char)
  | [], cs => some cs
  | w :: word, c :: cs => if w = c then afterWord word cs else none
  | _ :: _, [] => none

/-! ## Numbers -/

/-- The digits at the front and what follows, when there is at least one. -/
def digits? (cs : List Char) : Option (List Char × List Char) :=
  match cs.takeWhile Char.isDigit with
  | [] => none
  | ds => some (ds, cs.dropWhile Char.isDigit)

/-- The integer part of a number: no leading zero but a lone one. -/
def integerPart? : List Char → Option (List Char × List Char)
  | '0' :: cs =>
    match cs with
    | c :: _ => if c.isDigit then none else some (['0'], cs)
    | [] => some (['0'], [])
  | cs => digits? cs

/-- The fraction of a number; there may be none. -/
def fractionPart? : List Char → Option (List Char × List Char)
  | '.' :: cs => (digits? cs).map fun (ds, rest) => ('.' :: ds, rest)
  | cs => some ([], cs)

/-- The exponent of a number; there may be none. -/
def exponentPart? : List Char → Option (List Char × List Char)
  | c :: cs =>
    if c = 'e' ∨ c = 'E' then
      match cs with
      | '+' :: cs => (digits? cs).map fun (ds, rest) => (c :: '+' :: ds, rest)
      | '-' :: cs => (digits? cs).map fun (ds, rest) => (c :: '-' :: ds, rest)
      | cs => (digits? cs).map fun (ds, rest) => (c :: ds, rest)
    else some ([], c :: cs)
  | [] => some ([], [])

/-- A number without its sign. -/
def unsigned? (cs : List Char) : Option (List Char × List Char) := do
  let (whole, cs) ← integerPart? cs
  let (fraction, cs) ← fractionPart? cs
  let (exponent, cs) ← exponentPart? cs
  return (whole ++ fraction ++ exponent, cs)

/-- A number and what follows it. -/
def number? : List Char → Option (Value × List Char)
  | '-' :: cs =>
    (unsigned? cs).map fun (text, rest) => (.number (String.ofList ('-' :: text)), rest)
  | cs => (unsigned? cs).map fun (text, rest) => (.number (String.ofList text), rest)

/-! ## Strings -/

/-- A part of a string: a character, or a 16-bit unit given by its number. -/
inductive StringPart where
  | char (c : Char)
  | unit (n : Nat)
deriving DecidableEq, Repr

/-- The character that a one-letter escape stands for. -/
def escaped? (c : Char) : Option Char :=
  if c = '"' ∨ c = '\\' ∨ c = '/' then some c
  else if c = 'b' then some '\x08'
  else if c = 'f' then some '\x0c'
  else if c = 'n' then some '\n'
  else if c = 'r' then some '\r'
  else if c = 't' then some '\t'
  else none

/-- The parts of a string after its opening quote, and what follows the closing one. -/
def stringParts? : List Char → Option (List StringPart × List Char)
  | [] => none
  | '"' :: cs => some ([], cs)
  | '\\' :: 'u' :: a :: b :: c :: d :: cs => do
    let n ← Text.hexNumber? [a, b, c, d]
    let (parts, rest) ← stringParts? cs
    return (.unit n :: parts, rest)
  | '\\' :: c :: cs => do
    let c ← escaped? c
    let (parts, rest) ← stringParts? cs
    return (.char c :: parts, rest)
  | c :: cs =>
    if c.toNat < 0x20 ∨ c = '\\' then none
    else do
      let (parts, rest) ← stringParts? cs
      return (.char c :: parts, rest)

/-- The text of a string's parts; none when a surrogate is not paired. -/
def textOfParts? : List StringPart → Option (List Char)
  | [] => some []
  | .char c :: parts => (textOfParts? parts).map (c :: ·)
  | .unit n :: parts =>
    if 0xDC00 ≤ n ∧ n ≤ 0xDFFF then none
    else if 0xD800 ≤ n ∧ n ≤ 0xDBFF then
      match parts with
      | .unit m :: parts =>
        if 0xDC00 ≤ m ∧ m ≤ 0xDFFF then
          (textOfParts? parts).map
            (Char.ofNat (0x10000 + (n - 0xD800) * 0x400 + (m - 0xDC00)) :: ·)
        else none
      | _ => none
    else (textOfParts? parts).map (Char.ofNat n :: ·)

/-- The text of a string after its opening quote, if it has one, and what follows. -/
def string? (cs : List Char) : Option (Option String × List Char) :=
  (stringParts? cs).map fun (parts, rest) => ((textOfParts? parts).map String.ofList, rest)

/-! ## Values -/

mutual
/-- A value and what follows it. -/
def value? : Nat → List Char → Option (Value × List Char)
  | 0, _ => none
  | fuel + 1, cs =>
    match skipBlanks cs with
    | [] => none
    | c :: rest =>
      if c = '"' then
        (string? rest).map fun (text, rest) =>
          ((text.map Value.string).getD .brokenString, rest)
      else if c = '[' then
        match skipBlanks rest with
        | ']' :: rest => some (.array [], rest)
        | rest => (items? fuel rest).map fun (items, rest) => (.array items, rest)
      else if c = '\x7b' then
        match skipBlanks rest with
        | '\x7d' :: rest => some (.object [], rest)
        | rest => (fields? fuel rest).map fun (fields, rest) => (.object fields, rest)
      else if c = 't' then (afterWord "rue".toList rest).map fun rest => (.bool true, rest)
      else if c = 'f' then (afterWord "alse".toList rest).map fun rest => (.bool false, rest)
      else if c = 'n' then (afterWord "ull".toList rest).map fun rest => (.null, rest)
      else number? (c :: rest)

/-- The items of an array up to its closing bracket, at least one. -/
def items? : Nat → List Char → Option (List Value × List Char)
  | 0, _ => none
  | fuel + 1, cs =>
    match value? fuel cs with
    | none => none
    | some (item, rest) =>
      match skipBlanks rest with
      | ',' :: rest => (items? fuel rest).map fun (items, rest) => (item :: items, rest)
      | ']' :: rest => some ([item], rest)
      | _ => none

/-- The entries of an object up to its closing brace, at least one. -/
def fields? : Nat → List Char → Option (List (Option String × Value) × List Char)
  | 0, _ => none
  | fuel + 1, cs =>
    match skipBlanks cs with
    | '"' :: rest =>
      match string? rest with
      | none => none
      | some (key, rest) =>
        match skipBlanks rest with
        | ':' :: rest =>
          match value? fuel rest with
          | none => none
          | some (value, rest) =>
            match skipBlanks rest with
            | ',' :: rest =>
              (fields? fuel rest).map fun (fields, rest) => ((key, value) :: fields, rest)
            | '\x7d' :: rest => some ([(key, value)], rest)
            | _ => none
        | _ => none
    | _ => none
end

/-- The value that a text holds: one value with nothing but blanks around it.  Each
step of the reader takes a character or enters a value, so twice the length is
fuel enough. -/
def read (text : String) : Option Value :=
  match value? (2 * text.toList.length + 2) text.toList with
  | some (value, rest) => if skipBlanks rest = [] then some value else none
  | none => none

end NativeBuild.Json
