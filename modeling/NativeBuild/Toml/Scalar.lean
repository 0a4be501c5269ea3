import NativeBuild.Text.Hexadecimal
import NativeBuild.Toml.Value

/-!
# TOML scalars and keys

The lexical level of TOML: blanks, comments, keys, strings, numbers and dates.  A
scanner takes what it reads off the front of the text.

Main definitions:

- `Toml.Scanner`: a reader of a front part of a text.
- `Toml.key?`: a key by its dotted parts.
- `Toml.scalar?`: a value that is neither an array nor an inline table.
-/

namespace NativeBuild.Toml

open Text (hexValue? hexNumber?)

/-- A reader of a front part of a text: what it read, and the rest. -/
abbrev Scanner (α : Type) := List Char → Option (α × List Char)

/-! ## Blanks, lines and comments -/

/-- A blank within a line. -/
def isBlank (c : Char) : Bool :=
  c == ' ' || c == '\t'

/-- What follows the blanks. -/
def skipBlanks (cs : List Char) : List Char :=
  cs.dropWhile isBlank

/-- What follows the line break, when the text starts with one. -/
def afterLineBreak? : List Char → Option (List Char)
  | '\n' :: cs => some cs
  | '\r' :: '\n' :: cs => some cs
  | _ => none

/-- A character above the ASCII range. -/
def isWide (c : Char) : Bool :=
  0x80 ≤ c.toNat

/-- A character of a comment: all but control characters, a tab excepted. -/
def isCommentChar (c : Char) : Bool :=
  c == '\t' || (0x20 ≤ c.toNat && c.toNat ≤ 0x7E) || isWide c

/-- What follows a comment that may be there, up to the end of its line. -/
def skipComment : List Char → List Char
  | '#' :: cs => cs.dropWhile isCommentChar
  | cs => cs

/-- What follows the rest of a line on which only a comment may stand. -/
def afterLine? (cs : List Char) : Option (List Char) :=
  match skipComment (skipBlanks cs) with
  | [] => some []
  | cs => afterLineBreak? cs

/-- What follows blanks, comments and line breaks; each comment ends its line. -/
def skipLines : Nat → List Char → List Char
  | 0, cs => cs
  | fuel + 1, cs =>
    match skipBlanks cs with
    | '#' :: rest =>
      match afterLineBreak? (rest.dropWhile isCommentChar) with
      | some rest => skipLines fuel rest
      | none => '#' :: rest
    | cs =>
      match afterLineBreak? cs with
      | some rest => skipLines fuel rest
      | none => cs

/-! ## Strings -/

/-- The character with the number given by hexadecimal digits. -/
def scalarValue? (digits : List Char) : Option Char := do
  let n ← hexNumber? digits
  if n.isValidChar then some (Char.ofNat n) else none

/-- The character that a one-letter escape stands for. -/
def escaped? (c : Char) : Option Char :=
  if c = '"' ∨ c = '\\' then some c
  else if c = 'b' then some '\x08'
  else if c = 'f' then some '\x0c'
  else if c = 'n' then some '\n'
  else if c = 'r' then some '\r'
  else if c = 't' then some '\t'
  else none

/-- A character that stands for itself in a basic string. -/
def isBasicChar (c : Char) : Bool :=
  isCommentChar c && c != '"' && c != '\\'

/-- A character that stands for itself in a literal string. -/
def isLiteralChar (c : Char) : Bool :=
  isCommentChar c && c != '\''

/-- A basic string after its opening quote. -/
def basicString? : Scanner (List Char)
  | [] => none
  | '"' :: cs => some ([], cs)
  | '\\' :: 'u' :: a :: b :: c :: d :: cs => do
    let char ← scalarValue? [a, b, c, d]
    let (text, rest) ← basicString? cs
    return (char :: text, rest)
  | '\\' :: 'U' :: a :: b :: c :: d :: e :: f :: g :: h :: cs => do
    let char ← scalarValue? [a, b, c, d, e, f, g, h]
    let (text, rest) ← basicString? cs
    return (char :: text, rest)
  | '\\' :: c :: cs => do
    let char ← escaped? c
    let (text, rest) ← basicString? cs
    return (char :: text, rest)
  | c :: cs =>
    if isBasicChar c then do
      let (text, rest) ← basicString? cs
      return (c :: text, rest)
    else none

/-- A literal string after its opening apostrophe. -/
def literalString? (cs : List Char) : Option (List Char × List Char) :=
  match cs.dropWhile isLiteralChar with
  | '\'' :: rest => some (cs.takeWhile isLiteralChar, rest)
  | _ => none

/-- How a run of quotes inside a string of several lines ends it: one or two quotes
are content, three to five close the string after at most two more. -/
def closing? (run : Nat) : Option Nat :=
  if 3 ≤ run ∧ run ≤ 5 then some (run - 3) else none

/-- What follows blanks and line breaks. -/
def skipBlankLines : List Char → List Char
  | [] => []
  | '\r' :: '\n' :: cs => skipBlankLines cs
  | c :: cs => if isBlank c || c == '\n' then skipBlankLines cs else c :: cs

/-- What follows a backslash at the end of a line: the next text on a later line. -/
def afterFoldedLine? (cs : List Char) : Option (List Char) :=
  (afterLineBreak? (skipBlanks cs)).map skipBlankLines

/-- Put characters before what a scanner read. -/
def prepend (front : List Char) (result : Option (List Char × List Char)) :
    Option (List Char × List Char) :=
  result.map fun (text, rest) => (front ++ text, rest)

/-- A basic string of several lines after its opening quotes. -/
def basicLines? : Nat → Scanner (List Char)
  | 0, _ => none
  | fuel + 1, cs =>
    match cs with
    | [] => none
    | '"' :: _ =>
      let run := (cs.takeWhile (· == '"')).length
      let rest := cs.dropWhile (· == '"')
      match closing? run with
      | some extra => some (List.replicate extra '"', rest)
      | none =>
        if run ≤ 2 then prepend (List.replicate run '"') (basicLines? fuel rest) else none
    | '\\' :: rest =>
      match afterFoldedLine? rest with
      | some rest => basicLines? fuel rest
      | none =>
        match rest with
        | 'u' :: a :: b :: c :: d :: rest => do
          prepend [← scalarValue? [a, b, c, d]] (basicLines? fuel rest)
        | 'U' :: a :: b :: c :: d :: e :: f :: g :: h :: rest => do
          prepend [← scalarValue? [a, b, c, d, e, f, g, h]] (basicLines? fuel rest)
        | c :: rest => do prepend [← escaped? c] (basicLines? fuel rest)
        | [] => none
    | c :: rest =>
      if isBasicChar c then prepend [c] (basicLines? fuel rest)
      else
        match afterLineBreak? cs with
        | some rest => prepend ['\n'] (basicLines? fuel rest)
        | none => none

/-- A literal string of several lines after its opening apostrophes. -/
def literalLines? : Nat → Scanner (List Char)
  | 0, _ => none
  | fuel + 1, cs =>
    match cs with
    | [] => none
    | '\'' :: _ =>
      let run := (cs.takeWhile (· == '\'')).length
      let rest := cs.dropWhile (· == '\'')
      match closing? run with
      | some extra => some (List.replicate extra '\'', rest)
      | none =>
        if run ≤ 2 then prepend (List.replicate run '\'') (literalLines? fuel rest) else none
    | c :: rest =>
      if isLiteralChar c then prepend [c] (literalLines? fuel rest)
      else
        match afterLineBreak? cs with
        | some rest => prepend ['\n'] (literalLines? fuel rest)
        | none => none

/-- The text after the first line break, when the text starts with one. -/
def dropLineBreak (cs : List Char) : List Char :=
  (afterLineBreak? cs).getD cs

/-- A string of any form. -/
def string? (cs : List Char) : Option (String × List Char) :=
  let result :=
    match cs with
    | '"' :: '"' :: '"' :: cs => basicLines? (cs.length + 1) (dropLineBreak cs)
    | '\'' :: '\'' :: '\'' :: cs => literalLines? (cs.length + 1) (dropLineBreak cs)
    | '"' :: cs => basicString? cs
    | '\'' :: cs => literalString? cs
    | _ => none
  result.map fun (text, rest) => (String.ofList text, rest)

/-! ## Keys -/

/-- A character of a bare key. -/
def isBareChar (c : Char) : Bool :=
  c.isAlphanum || c == '-' || c == '_'

/-- One part of a key: bare, or a string of one line. -/
def keyPart? : Scanner String
  | '"' :: cs => (basicString? cs).map fun (text, rest) => (String.ofList text, rest)
  | '\'' :: cs => (literalString? cs).map fun (text, rest) => (String.ofList text, rest)
  | cs =>
    match cs.takeWhile isBareChar with
    | [] => none
    | text => some (String.ofList text, cs.dropWhile isBareChar)

/-- A key by its parts, with the blanks around it. -/
def keyParts? : Nat → Scanner (List String)
  | 0, _ => none
  | fuel + 1, cs =>
    match keyPart? (skipBlanks cs) with
    | none => none
    | some (part, rest) =>
      match skipBlanks rest with
      | '.' :: rest => (keyParts? fuel rest).map fun (parts, rest) => (part :: parts, rest)
      | rest => some ([part], rest)

/-- How deep keys and values may nest. -/
def maxDepth : Nat := 80

/-- A key by its parts, with the blanks around it; it may not be too long. -/
def key? (cs : List Char) : Option (List String × List Char) :=
  match keyParts? (cs.length + 1) cs with
  | some (parts, rest) => if parts.length < maxDepth then some (parts, rest) else none
  | none => none

/-! ## Numbers -/

/-- Digits with single underscores between them, at least one digit. -/
def digits? (isDigit : Char → Bool) : Nat → Scanner (List Char)
  | 0, _ => none
  | fuel + 1, c :: cs =>
    if isDigit c then
      match cs with
      | '_' :: rest => prepend [c] (digits? isDigit fuel rest)
      | _ =>
        match digits? isDigit fuel cs with
        | some (more, rest) => some (c :: more, rest)
        | none => some ([c], cs)
    else none
  | _, [] => none

/-- A sign that may be there. -/
def sign? : List Char → Option Char × List Char
  | '+' :: cs => (some '+', cs)
  | '-' :: cs => (some '-', cs)
  | cs => (none, cs)

/-- Decimal digits without a leading zero. -/
def decimal? : Scanner (List Char)
  | '0' :: cs => some (['0'], cs)
  | cs => digits? Char.isDigit (cs.length + 1) cs

/-- The number of some digits in a base. -/
def numberOf (base : Nat) (digits : List Char) : Nat :=
  digits.foldl (fun n c => n * base + (hexValue? c).getD 0) 0

/-- An integer in the range of 64 bits. -/
def integerIn? (n : Int) : Option Value :=
  if -(Nat.pow 2 63 : Int) ≤ n ∧ n < (Nat.pow 2 63 : Int) then some (.integer n) else none

/-- An integer after the mark of its base. -/
def basedInteger? (base : Nat) (isDigit : Char → Bool) (cs : List Char) :
    Option (Value × List Char) := do
  let (digits, rest) ← digits? isDigit (cs.length + 1) cs
  return (← integerIn? (numberOf base digits), rest)

/-- An integer. -/
def integer? : Scanner Value
  | '0' :: 'x' :: cs => basedInteger? 16 (fun c => (hexValue? c).isSome) cs
  | '0' :: 'o' :: cs => basedInteger? 8 (fun c => '0' ≤ c && c ≤ '7') cs
  | '0' :: 'b' :: cs => basedInteger? 2 (fun c => c == '0' || c == '1') cs
  | cs => do
    let (sign, cs) := sign? cs
    let (digits, rest) ← decimal? cs
    let n : Int := numberOf 10 digits
    return (← integerIn? (if sign = some '-' then -n else n), rest)

/-- The exponent of a float. -/
def exponent? : Scanner Int
  | c :: cs =>
    if c = 'e' ∨ c = 'E' then do
      let (sign, cs) := sign? cs
      let (digits, rest) ← digits? Char.isDigit (cs.length + 1) cs
      let n : Int := numberOf 10 digits
      return (if sign = some '-' then -n else n, rest)
    else none
  | [] => none

/-- The digits of a fraction, with the point. -/
def fraction? : Scanner (List Char)
  | '.' :: cs => digits? Char.isDigit (cs.length + 1) cs
  | _ => none

/-- A decimal is too large for a float when it rounds to no finite one. -/
def overflows (digits : List Char) (exponent : Int) : Bool :=
  let significant := digits.dropWhile (· == '0')
  let magnitude : Int := significant.length + exponent
  if significant = [] then false
  else if 310 < magnitude then true
  else if magnitude < 309 then false
  else
    let n := numberOf 10 significant
    let bound := Nat.pow 2 1024 - Nat.pow 2 970
    if 0 ≤ exponent then bound ≤ n * Nat.pow 10 exponent.toNat
    else bound * Nat.pow 10 (-exponent).toNat ≤ n

/-- A float: a fraction, an exponent or both are there, or it is `inf` or `nan`. -/
def float? (cs : List Char) : Option (Value × List Char) := do
  let (sign, body) := sign? cs
  match body with
  | 'i' :: 'n' :: 'f' :: rest => return (.float "inf", rest)
  | 'n' :: 'a' :: 'n' :: rest => return (.float "nan", rest)
  | body =>
    let (whole, rest) ← decimal? body
    let (part, exponent, rest) ←
      match exponent? rest with
      | some (exponent, rest) => some ([], exponent, rest)
      | none =>
        match fraction? rest with
        | some (part, rest) =>
          match exponent? rest with
          | some (exponent, rest) => some (part, exponent, rest)
          | none => some (part, 0, rest)
        | none => none
    if sign ≠ some '-' ∧ overflows (whole ++ part) (exponent - part.length) then none
    else return (.float (String.ofList (cs.take (cs.length - rest.length))), rest)

/-! ## Dates and times -/

/-- A number of exactly two digits within bounds. -/
def twoDigits? (low high : Nat) : Scanner Nat
  | a :: b :: cs =>
    let n := numberOf 10 [a, b]
    if a.isDigit ∧ b.isDigit ∧ low ≤ n ∧ n ≤ high then some (n, cs) else none
  | _ => none

/-- What follows an expected character. -/
def after? (c : Char) : List Char → Option (List Char)
  | d :: cs => if c = d then some cs else none
  | [] => none

/-- The number of days of a month. -/
def daysIn (year month : Nat) : Nat :=
  if month = 2 then
    if year % 4 = 0 ∧ (year % 100 ≠ 0 ∨ year % 400 = 0) then 29 else 28
  else if month = 4 ∨ month = 6 ∨ month = 9 ∨ month = 11 then 30
  else 31

/-- What follows a date. -/
def afterDate? (cs : List Char) : Option (List Char) := do
  let (century, cs) ← twoDigits? 0 99 cs
  let (year, cs) ← twoDigits? 0 99 cs
  let (month, cs) ← twoDigits? 1 12 (← after? '-' cs)
  let (_, cs) ← twoDigits? 1 (daysIn (century * 100 + year) month) (← after? '-' cs)
  return cs

/-- What follows a time of day. -/
def afterTime? (cs : List Char) : Option (List Char) := do
  let (_, cs) ← twoDigits? 0 23 cs
  let (_, cs) ← twoDigits? 0 59 (← after? ':' cs)
  let (_, cs) ← twoDigits? 0 60 (← after? ':' cs)
  match cs with
  | '.' :: rest =>
    if (rest.takeWhile Char.isDigit) = [] then return cs
    else return rest.dropWhile Char.isDigit
  | _ => return cs

/-- What follows an offset from universal time that may be there. -/
def skipOffset (cs : List Char) : List Char :=
  match cs with
  | 'Z' :: rest => rest
  | 'z' :: rest => rest
  | '+' :: rest => (offset? rest).getD cs
  | '-' :: rest => (offset? rest).getD cs
  | _ => cs
where
  /-- What follows the hours and minutes of an offset. -/
  offset? (cs : List Char) : Option (List Char) := do
    let (_, cs) ← twoDigits? 0 23 cs
    let (_, cs) ← twoDigits? 0 59 (← after? ':' cs)
    return cs

/-- What follows a date, a time, or a date with a time. -/
def afterDatetime? (cs : List Char) : Option (List Char) :=
  match afterDate? cs with
  | some rest =>
    match rest with
    | c :: time =>
      if c = 'T' ∨ c = 't' ∨ c = ' ' then
        match afterTime? time with
        | some rest => some (skipOffset rest)
        | none => some rest
      else some rest
    | [] => some rest
  | none => afterTime? cs

/-- A date, a time or both. -/
def datetime? (cs : List Char) : Option (Value × List Char) :=
  (afterDatetime? cs).map fun rest =>
    (.datetime (String.ofList (cs.take (cs.length - rest.length))), rest)

/-! ## Scalars -/

/-- A value that is neither an array nor an inline table. -/
def scalar? (cs : List Char) : Option (Value × List Char) :=
  match cs with
  | [] => none
  | c :: rest =>
    if c = '"' ∨ c = '\'' then (string? cs).map fun (text, rest) => (.string text, rest)
    else if c.isDigit ∨ c = '+' ∨ c = '-' then
      (datetime? cs).or ((float? cs).or (integer? cs))
    else
      match c, rest with
      | 't', 'r' :: 'u' :: 'e' :: rest => some (.boolean true, rest)
      | 'f', 'a' :: 'l' :: 's' :: 'e' :: rest => some (.boolean false, rest)
      | 'i', 'n' :: 'f' :: rest => some (.float "inf", rest)
      | 'n', 'a' :: 'n' :: rest => some (.float "nan", rest)
      | _, _ => none

end NativeBuild.Toml
