import NativeBuild.Shell.Text

/-!
# Scripts

What a script is once it is read: words with their quotes and expansions, redirections,
and commands of every form.

Main definitions:

- `Part` and `Word`: a word as its parts.
- `Redirect`: a redirection.
- `Script`: a command of any form.
-/

namespace NativeBuild.Shell

/-- What a parameter between braces is expanded to. -/
inductive Operation where
  /-- Its value. -/
  | value
  /-- Its value, or a word where it is not set. -/
  | orElse
  /-- A word where it is set, else nothing. -/
  | ifSet
  /-- Its value; that it is not set is an error with a word as its text. -/
  | orFail
  /-- Its value; where it is not set, it is set to a word. -/
  | orAssign
  /-- Its value without a pattern at the end, the longest or the shortest one. -/
  | trimEnd (longest : Bool)
  /-- Its value without a pattern at the start, the longest or the shortest one. -/
  | trimStart (longest : Bool)
  /-- The length of its value. -/
  | length
  /-- What stands between the braces means nothing. -/
  | malformed
deriving DecidableEq, Repr

/-- How a file is opened by a redirection. -/
inductive FileMode where
  | read
  /-- For writing, emptied first. -/
  | write
  /-- For writing, emptied first even where files are protected. -/
  | overwrite
  | append
  | readWrite
deriving DecidableEq, Repr

mutual

/-- A part of a word. -/
inductive Part where
  /-- A character that may have a meaning of its own. -/
  | char (c : Char)
  /-- A character that quotes took its meaning from. -/
  | shielded (c : Char)
  /-- Quotes open or close. -/
  | quote
  /-- A parameter; with the flag, an empty value counts as none. -/
  | parameter (name : String) (operation : Operation) (orEmpty : Bool) (word : List Part)
  /-- What a script writes. -/
  | substitution (body : Script)
  /-- The value of an expression. -/
  | arithmetic (expression : List Part)

/-- A redirection of a stream. -/
inductive Redirect where
  | file (stream : Nat) (mode : FileMode) (name : List Part)
  /-- The stream goes where another one goes, or is closed. -/
  | duplicate (stream : Nat) (source : Option Nat)
  /-- The number of the other stream comes from a word. -/
  | duplicateNamed (stream : Nat) (source : List Part)
  /-- The stream reads a text that stands in the script. -/
  | document (stream : Nat) (text : List Part)

/-- A command of any form. -/
inductive Script where
  /-- No command. -/
  | skip
  /-- A command of words, with assignments in front of them. -/
  | simple (line : Nat) (assignments words : List (List Part)) (redirects : List Redirect)
  /-- Each command reads what the one before it writes. -/
  | pipeline (background : Bool) (commands : List Script)
  /-- A command that is not waited for. -/
  | background (line : Nat) (body : Script) (redirects : List Redirect)
  /-- A command in a shell of its own. -/
  | subshell (line : Nat) (body : Script) (redirects : List Redirect)
  | redirected (line : Nat) (body : Script) (redirects : List Redirect)
  /-- Success and failure change places. -/
  | negated (body : Script)
  /-- The second command runs after success of the first. -/
  | both (first second : Script)
  /-- The second command runs after failure of the first. -/
  | either (first second : Script)
  | sequence (first second : Script)
  | conditional (test yes : Script) (no : Option Script)
  /-- The body runs again while the test has the wanted outcome. -/
  | loop (wanted : Bool) (test body : Script)
  /-- The body runs once for every field of the words. -/
  | each (line : Nat) (name : String) (words : List (List Part)) (body : Script)
  /-- The first arm with a pattern that fits the subject. -/
  | choice (line : Nat) (subject : List Part) (arms : List (List (List Part) × Script))
  | definition (name : String) (body : Script)

end

instance : Inhabited Part := ⟨.quote⟩
instance : Inhabited Script := ⟨.skip⟩

/-- A word as its parts. -/
abbrev Word := List Part

/-- There is no command. -/
def Script.isSkip : Script → Bool
  | .skip => true
  | _ => false

namespace Word

/-- The text of a word in which nothing is quoted or expanded. -/
def plain? : Word → Option String
  | [] => some ""
  | .char c :: rest => (plain? rest).map fun text => String.singleton c ++ text
  | _ :: _ => none

/-- The characters at the front of a word that have no quotes. -/
def plainFront : Word → List Char
  | .char c :: rest => c :: plainFront rest
  | _ => []

/-- The text of a word with its quotes taken away, as far as it has one. -/
def unquoted : Word → List Char
  | [] => []
  | .char c :: rest => c :: unquoted rest
  | .shielded c :: rest => c :: unquoted rest
  | _ :: rest => unquoted rest

/-- A word starts with a name and an equals sign. -/
def isAssignment (word : Word) : Bool :=
  let front := plainFront word
  isName (String.ofList (front.takeWhile (· != '='))) && front.contains '='

end Word

end NativeBuild.Shell
