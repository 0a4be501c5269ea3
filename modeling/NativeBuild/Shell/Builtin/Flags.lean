import NativeBuild.Shell.Variables

/-!
# Flags of commands

Letters behind hyphens in front of the other fields of a command.

Main definitions:

- `Flag`: a letter, perhaps with an argument.
- `readFlags`: the flags in front and the fields after them.
- `startsWithFlag`: a first flag after which no field counts.
-/

namespace NativeBuild.Shell

/-- A flag of a command. -/
structure Flag where
  letter : Char
  argument : Option String := none
deriving DecidableEq, Repr

/-- Which letters are flags, and which of them have an argument. -/
structure KnownFlags where
  letters : List Char := []
  withArgument : List Char := []

/-- The flags that the letters of a field stand for, and the fields left; the last letter
may have the next field as its argument. -/
def readFlagLetters (known : KnownFlags) :
    List Char → List String → Act (List Flag × List String)
  | [], rest => return ([], rest)
  | c :: cs, rest => do
    if c ∈ known.withArgument then
      match cs, rest with
      | [], [] => fault s!"No arg for -{c} option"
      | [], argument :: rest => return ([⟨c, some argument⟩], rest)
      | cs, rest => return ([⟨c, some (String.ofList cs)⟩], rest)
    else if c ∈ known.letters then
      let (flags, rest) ← readFlagLetters known cs rest
      return (⟨c, none⟩ :: flags, rest)
    else fault s!"Illegal option -{c}"

/-- The flags in at most so many fields, and the fields after them. -/
def readFlagsWithin (known : KnownFlags) :
    Nat → List String → Act (List Flag × List String)
  | 0, fields => return ([], fields)
  | n + 1, fields => do
    match fields with
    | "--" :: rest => return ([], rest)
    | field :: rest =>
      match field.toList with
      | '-' :: c :: cs =>
        let (flags, rest) ← readFlagLetters known (c :: cs) rest
        let (more, rest) ← readFlagsWithin known n rest
        return (flags ++ more, rest)
      | _ => return ([], fields)
    | [] => return ([], [])

/-- The flags in front, and the fields after them. -/
def readFlags (known : KnownFlags) (fields : List String) : Act (List Flag × List String) :=
  readFlagsWithin known fields.length fields

/-- The fields of a command that has no flags. -/
def withoutFlags (fields : List String) : Act (List String) := do
  return (← readFlags {} fields).2

/-- The first flag is a certain letter. -/
def startsWithFlag (letter : Char) (fields : List String) : Bool :=
  match fields with
  | field :: _ => ['-', letter].isPrefixOf field.toList
  | [] => false

end NativeBuild.Shell
