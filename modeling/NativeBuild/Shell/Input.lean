import NativeBuild.Shell.Script

/-!
# The input of a script

Where the reading of a script is: the characters to come, the line, the texts that aliases
put in front, and the documents that are still to be read.

Main definitions:

- `Token`: a token of a script.
- `Reading`: the state of the reading.
- `Reader`: a step of the reading, which may fail.
-/

namespace NativeBuild.Shell

/-! ## Tokens -/

/-- What a redirection sign asks for. -/
inductive RedirectKind where
  | file (mode : FileMode)
  | duplicate
  /-- A text in the script itself, whose lines may lose the tabs in front of them. -/
  | document (stripped : Bool)
deriving DecidableEq, Repr

/-- A token of a script. -/
inductive Token where
  /-- The script ends. -/
  | finish
  | newline
  /-- A sign: `;`, `&`, `&&`, `||`, `|`, `(`, `)` or `;;`. -/
  | sign (text : String)
  | redirect (stream : Nat) (kind : RedirectKind)
  /-- A word, and whether any of it is quoted. -/
  | word (word : Word) (quoted : Bool)
  /-- A word with a meaning of its own where a command starts. -/
  | keyword (text : String)
deriving Inhabited

namespace Token

/-- The name of a token in messages. -/
def name : Token → String
  | .finish => "end of file"
  | .newline => "newline"
  | .sign text => s!"\"{text}\""
  | .redirect .. => "redirection"
  | .word .. => "word"
  | .keyword text => s!"\"{text}\""

/-- The token is a certain sign. -/
def isSign (token : Token) (text : String) : Bool :=
  match token with
  | .sign own => own == text
  | _ => false

/-- The token is a certain keyword. -/
def isKeyword (token : Token) (text : String) : Bool :=
  match token with
  | .keyword own => own == text
  | _ => false

/-- A list of commands may end before the token. -/
def endsList : Token → Bool
  | .finish => true
  | .sign text => text ∈ [")", ";;"]
  | .keyword text => text ∈ ["do", "done", "elif", "else", "esac", "fi", "then", "\x7d"]
  | _ => false

end Token

/-- The words that have a meaning of their own where a command starts. -/
def keywords : List String :=
  ["!", "case", "do", "done", "elif", "else", "esac", "fi", "for", "if", "in", "then",
    "until", "while", "\x7b", "\x7d"]

/-! ## Readings -/

/-- Why a script cannot be read. -/
structure Malformed where
  reason : String
deriving DecidableEq, Repr, Inhabited

/-- A document whose text has not come yet. -/
structure Document where
  number : Nat
  /-- The line that ends it, if there is one. -/
  ending : Option (List Char)
  /-- Its lines lose the tabs in front of them. -/
  stripped : Bool
  /-- It holds expansions. -/
  expanded : Bool
deriving Repr

/-- The text of an alias that is read in place of its name. -/
structure Inserted where
  name : String
  text : List Char
  /-- The text ends with a blank, after which another alias may stand. -/
  blankEnded : Bool
  /-- The end of the text was already met. -/
  ended : Bool := false
deriving Repr

/-- The state of the reading. -/
structure Reading where
  /-- The characters to come after all texts of aliases. -/
  text : List Char
  inserted : List Inserted := []
  line : Nat := 1
  /-- A line has ended, and nothing of the next one was taken. -/
  lineEnded : Bool := false
  /-- How many lines came after the first one. -/
  moreLines : Nat := 0
  aliases : List (String × String) := []
  /-- The last token. -/
  token : Token := .newline
  /-- The last token is read once more. -/
  again : Bool := false
  /-- The last word. -/
  lastWord : Word := []
  /-- The next word may be an alias. -/
  aliasNext : Bool := false
  /-- The documents whose texts come after the line. -/
  waiting : List Document := []
  /-- The number of documents so far. -/
  documents : Nat := 0
  /-- The texts of documents by their numbers. -/
  found : List (Nat × Word) := []
  /-- How many documents stand in the texts of others. -/
  nested : Nat := 0
  /-- The texts of documents, as an earlier reading of the same script found them. -/
  known : List (Nat × Word) := []

/-- A step of the reading. -/
abbrev Reader := EStateM Malformed Reading

/-- The script cannot be read. -/
def malformed {α : Type} (reason : String) : Reader α :=
  throw ⟨reason⟩

/-- Take a step again and again until it gives a result, at most so many times. -/
def iterate {α β : Type} : Nat → (α → Reader (α ⊕ β)) → α → Reader β
  | 0, _, _ => malformed "too long"
  | n + 1, step, a => do
    match ← step a with
    | .inl a => iterate n step a
    | .inr b => return b

namespace Reading

/-- The end of the script is the token to come. -/
def isOver (r : Reading) : Bool :=
  r.again && r.token matches .finish

/-- The reading where something of a line is taken. -/
def inLine (r : Reading) : Reading :=
  if r.lineEnded then { r with lineEnded := false, moreLines := r.moreLines + 1 } else r

/-- The next character and the reading after it, in front of which the given texts of
aliases stand.  The end of such a text reads as a blank once, unless the text itself ends
with one. -/
def nextFrom (r : Reading) : List Inserted → Option Char × Reading
  | [] =>
    let r := r.inLine
    match r.text with
    | [] => (none, { r with inserted := [] })
    | c :: rest => (some c, { r with inserted := [], text := rest })
  | top :: below =>
    match top.text with
    | c :: rest => (some c, { r with inserted := { top with text := rest } :: below })
    | [] =>
      if top.blankEnded then nextFrom { r with aliasNext := true } below
      else if top.ended then nextFrom r below
      else (some ' ', { r with inserted := { top with ended := true } :: below })

/-- The characters to come up to the end of the text of an alias. -/
def front (r : Reading) : List Char :=
  match r.inserted with
  | [] => r.text
  | top :: _ => top.text

/-- The reading with other characters to come up to there. -/
def withFront (r : Reading) (text : List Char) : Reading :=
  match r.inserted with
  | [] => { r with text }
  | top :: below => { r with inserted := { top with text } :: below }

/-- The reading with a character in front of it. -/
def putBack (r : Reading) (c : Char) : Reading :=
  r.withFront (c :: r.front)

/-- The number of line continuations at the front, and what follows them. -/
def continuations : List Char → Nat × List Char
  | '\\' :: '\n' :: rest =>
    let (n, rest) := continuations rest
    (n + 1, rest)
  | cs => (0, cs)

/-- The reading without the line continuations in front of it. -/
def joinLines (r : Reading) : Reading :=
  let (n, text) := continuations r.front
  if n = 0 then r
  else
    let r := r.inLine.withFront text
    { r with line := r.line + n, moreLines := r.moreLines + n }

end Reading

/-! ## Characters -/

/-- Take the next character as it stands. -/
def nextRaw : Reader (Option Char) :=
  modifyGet fun r => r.nextFrom r.inserted

/-- Take the next character; a backslash before a line end joins two lines. -/
def next : Reader (Option Char) := do
  modify Reading.joinLines
  nextRaw

/-- Give a character back. -/
def putBack (c : Option Char) : Reader Unit :=
  match c with
  | some c => modify fun r => r.putBack c
  | none => return ()

/-- Take the next character if it is the given one. -/
def takeChar (wanted : Char) : Reader Bool := do
  let c ← next
  if c = some wanted then return true
  else
    putBack c
    return false

/-- A line has ended. -/
def countLine : Reader Unit :=
  modify fun r => { r with line := r.line + 1, lineEnded := true }

end NativeBuild.Shell
