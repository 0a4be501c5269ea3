/-!
# JSON values

A JSON document as data.  Numbers keep their text; an object keeps its entries in
order, repeated keys included; a string whose escapes name no text is kept apart,
because a reader that skips a value never looks at its characters.

Main definitions:

- `Json.Value`: a JSON value.
- `Json.Value.pretty`: the value written over several lines.
-/

namespace NativeBuild.Json

/-- A JSON value. -/
inductive Value where
  | null
  | bool (b : Bool)
  /-- A number, as it was written. -/
  | number (text : String)
  | string (text : String)
  /-- A string with an unpaired surrogate among its escapes. -/
  | brokenString
  | array (items : List Value)
  /-- An object; a key with an unpaired surrogate is none. -/
  | object (fields : List (Option String × Value))
deriving Repr, Inhabited

namespace Value

/-- The object with the given texts as its keys. -/
def record (fields : List (String × Value)) : Value :=
  .object (fields.map fun field => (some field.1, field.2))

/-- The array of the given texts. -/
def strings (texts : List String) : Value :=
  .array (texts.map .string)

/-! ## Writing -/

/-- A hexadecimal digit in lower case. -/
def hexDigit (n : Nat) : Char :=
  if n < 10 then Char.ofNat (48 + n) else Char.ofNat (87 + n)

/-- A character inside a string: quote, backslash and control characters are
escaped, the latter by a letter where one exists. -/
def escapeChar (c : Char) : List Char :=
  if c = '"' then ['\\', '"']
  else if c = '\\' then ['\\', '\\']
  else if c = '\n' then ['\\', 'n']
  else if c = '\r' then ['\\', 'r']
  else if c = '\t' then ['\\', 't']
  else if c = '\x08' then ['\\', 'b']
  else if c = '\x0c' then ['\\', 'f']
  else if c.toNat < 0x20 then
    ['\\', 'u', '0', '0', hexDigit (c.toNat / 16), hexDigit (c.toNat % 16)]
  else [c]

/-- A text as a string literal. -/
def quote (s : String) : String :=
  String.ofList ('"' :: s.toList.flatMap escapeChar ++ ['"'])

/-- The blanks before a line at the given depth. -/
def indent (depth : Nat) : String :=
  String.ofList (List.replicate (2 * depth) ' ')

mutual
/-- The value over several lines, two blanks for each level. -/
def prettyAt (depth : Nat) : Value → String
  | .null => "null"
  | .bool true => "true"
  | .bool false => "false"
  | .number text => text
  | .string text => quote text
  | .brokenString => quote "\uFFFD"
  | .array [] => "[]"
  | .array (item :: items) =>
    "[\n" ++ indent (depth + 1) ++ item.prettyAt (depth + 1) ++ prettyItems (depth + 1) items
      ++ "\n" ++ indent depth ++ "]"
  | .object [] => "\x7b\x7d"
  | .object ((key, value) :: fields) =>
    "\x7b\n" ++ indent (depth + 1) ++ quote (key.getD "\uFFFD") ++ ": "
      ++ value.prettyAt (depth + 1) ++ prettyFields (depth + 1) fields
      ++ "\n" ++ indent depth ++ "\x7d"

/-- The items of an array after its first. -/
def prettyItems (depth : Nat) : List Value → String
  | [] => ""
  | item :: items =>
    ",\n" ++ indent depth ++ item.prettyAt depth ++ prettyItems depth items

/-- The entries of an object after its first. -/
def prettyFields (depth : Nat) : List (Option String × Value) → String
  | [] => ""
  | (key, value) :: fields =>
    ",\n" ++ indent depth ++ quote (key.getD "\uFFFD") ++ ": " ++ value.prettyAt depth
      ++ prettyFields depth fields
end

/-- The value written over several lines. -/
def pretty (value : Value) : String :=
  value.prettyAt 0

end Value

end NativeBuild.Json
