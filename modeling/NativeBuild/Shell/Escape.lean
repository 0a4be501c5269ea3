import NativeBuild.Shell.Text

/-!
# Backslash escapes

What a backslash and the characters after it stand for.

Main definitions:

- `escape`: the bytes of one escape.
- `unescape`: a text with its escapes replaced.
-/

namespace NativeBuild.Shell

/-- The escapes that are known. -/
inductive EscapeSet where
  /-- Letters and octal numbers. -/
  | plain
  /-- Beside those, hexadecimal numbers. -/
  | extended
deriving DecidableEq, Repr

/-- The byte of one character. -/
def charByte (c : Char) : UInt8 :=
  UInt8.ofNat c.toNat

/-- The character that a letter after a backslash stands for. -/
def escapeLetter? (c : Char) : Option UInt8 :=
  if c = 'a' then some 7
  else if c = 'b' then some 8
  else if c = 'f' then some 12
  else if c = 'n' then some 10
  else if c = 'r' then some 13
  else if c = 't' then some 9
  else if c = 'v' then some 11
  else if c = '\\' then some 92
  else if c = 'e' then some 27
  else none

/-- A digit below eight. -/
def isOctal (c : Char) : Bool :=
  '0' ≤ c && c ≤ '7'

/-- The number that octal digits spell, in one byte. -/
def octalByte (digits : List Char) : UInt8 :=
  UInt8.ofNat (digits.foldl (fun n c => n * 8 + (c.toNat - 48)) 0)

/-- The octal digits at the front, three at most. -/
def octalFront (cs : List Char) : List Char :=
  (cs.take 3).takeWhile isOctal

/-- The hexadecimal digits at the front, two at most. -/
def hexFront (cs : List Char) : List Char :=
  (cs.take 2).takeWhile fun c => (Text.hexValue? c).isSome

/-- What a backslash before the given characters stands for, and how many of them belong
to it. -/
def escape (known : EscapeSet) (cs : List Char) : List UInt8 × Nat :=
  match cs with
  | [] => ([92], 0)
  | c :: rest =>
    match escapeLetter? c with
    | some byte => ([byte], 1)
    | none =>
      if isOctal c then ([octalByte (octalFront cs)], (octalFront cs).length)
      else if c = 'x' ∧ known = .extended ∧ hexFront rest ≠ [] then
        ([UInt8.ofNat ((Text.hexNumber? (hexFront rest)).getD 0)], (hexFront rest).length + 1)
      else ([92], 0)

/-- A text with its escapes replaced, and whether the escape `\c` ended it.  An octal
number may have a zero in front. -/
def unescape (known : EscapeSet) (cs : List Char) : List UInt8 × Bool :=
  match cs with
  | [] => ([], false)
  | '\\' :: 'c' :: _ => ([], true)
  | '\\' :: '0' :: rest =>
    let digits := octalFront rest
    let (bytes, ended) := unescape known (rest.drop digits.length)
    (octalByte digits :: bytes, ended)
  | '\\' :: rest =>
    let (first, taken) := escape known rest
    let (bytes, ended) := unescape known (rest.drop taken)
    (first ++ bytes, ended)
  | c :: rest =>
    let (bytes, ended) := unescape known rest
    (charByte c :: bytes, ended)
termination_by cs.length
decreasing_by all_goals simp only [List.length_drop, List.length_cons]; omega

end NativeBuild.Shell
