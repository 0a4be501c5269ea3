import NativeBuild.Path.Basic
import NativeBuild.Text.Hexadecimal

/-!
# Texts of the shell

The shell knows bytes only.  Its texts hold one character for every byte, so that a byte
of any value can stand in a word, a pattern or a variable.

Main definitions:

- `ofBytes` and `toBytes`: from bytes to characters and back.
- `isName`: a text that may name a variable.
- `digits?`: the number that digits spell.
- `padded`: a text in a column.
- `singleQuoted`: a text as a word that stands for it.
-/

namespace NativeBuild.Shell

/-! ## Bytes -/

/-- The characters of some bytes. -/
def ofBytes (bytes : List UInt8) : List Char :=
  bytes.map fun byte => Char.ofNat byte.toNat

/-- The bytes of some characters. -/
def toBytes (cs : List Char) : List UInt8 :=
  cs.map fun c => UInt8.ofNat c.toNat

/-- The text with one character for every byte of another. -/
def ofText (text : String) : String :=
  String.ofList (ofBytes (Text.utf8 text))

/-- The path that a text of the shell names. -/
def pathOf (text : String) : Path :=
  ⟨toBytes text.toList⟩

/-! ## Kinds of characters -/

/-- A character that a name may start with. -/
def isNameStart (c : Char) : Bool :=
  c.isAlpha || c == '_'

/-- A character of a name. -/
def isNameChar (c : Char) : Bool :=
  c.isAlphanum || c == '_'

/-- A text that may name a variable. -/
def isName (text : String) : Bool :=
  match text.toList with
  | [] => false
  | c :: rest => isNameStart c && rest.all isNameChar

/-- A character that numbers may have around them. -/
def isSpace (c : Char) : Bool :=
  c ∈ [' ', '\t', '\n', '\x0b', '\x0c', '\r']

/-! ## Numbers -/

/-- A digit of a base. -/
def isDigitOf (base : Nat) (c : Char) : Bool :=
  match Text.hexValue? c with
  | some n => n < base
  | none => false

/-- The number that digits spell in a base. -/
def numberIn (base : Nat) (digits : List Char) : Nat :=
  digits.foldl (fun n c => n * base + (Text.hexValue? c).getD 0) 0

/-- The number that digits spell, and nothing but digits. -/
def digits? (text : String) : Option Nat :=
  if text != "" && text.toList.all Char.isDigit then some (numberIn 10 text.toList) else none

/-- The base of the digits at the front, and what follows its mark. -/
def baseFront : List Char → Nat × List Char
  | '0' :: x :: c :: rest =>
    if (x = 'x' ∨ x = 'X') ∧ (Text.hexValue? c).isSome then (16, c :: rest)
    else (8, '0' :: x :: c :: rest)
  | '0' :: rest => (8, '0' :: rest)
  | cs => (10, cs)

/-- A number with its sign. -/
def signed (negative : Bool) (n : Nat) : Int :=
  if negative then -n else n

/-- The greatest number of 64 bits. -/
def maxNumber : Int := (Nat.pow 2 63 : Int) - 1

/-- The least number of 64 bits. -/
def minNumber : Int := -(Nat.pow 2 63 : Int)

/-- A number at the front of a text, and what follows it; none where there is no number. -/
def numberFront? (cs : List Char) : Option (Int × List Char) :=
  let (negative, body) :=
    match cs.dropWhile isSpace with
    | '-' :: body => (true, body)
    | '+' :: body => (false, body)
    | body => (false, body)
  let (base, body) := baseFront body
  let digits := body.takeWhile (isDigitOf base)
  if digits = [] then none
  else some (signed negative (numberIn base digits), body.dropWhile (isDigitOf base))

/-! ## Columns -/

/-- A text with blanks after it, up to a width. -/
def padded (width : Nat) (text : String) : String :=
  text ++ String.ofList (List.replicate (width - text.length) ' ')

/-! ## Quoting -/

/-- A text between quotes; quotes in it stand between quotes of the other kind. -/
def singleQuotedFrom : Bool → List Char → List Char
  | true, [] => ['\'']
  | false, [] => ['"']
  | true, '\'' :: rest => '\'' :: '"' :: '\'' :: singleQuotedFrom false rest
  | false, '\'' :: rest => '\'' :: singleQuotedFrom false rest
  | true, c :: rest => c :: singleQuotedFrom true rest
  | false, c :: rest => '"' :: '\'' :: c :: singleQuotedFrom true rest

/-- A text as a word that stands for it. -/
def singleQuoted (text : String) : String :=
  String.ofList ('\'' :: singleQuotedFrom true text.toList)

end NativeBuild.Shell
