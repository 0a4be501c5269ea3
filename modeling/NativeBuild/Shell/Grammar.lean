import NativeBuild.Shell.Word

/-!
# Reading commands

How the words and signs of a script make commands.  Commands of every form may stand in
each other; what is read next is a goal, and the reading of all goals is tied together at
the end.

Main definitions:

- `readToken`: the next token.
- `readList`, `readSimple` and `readCommand`: lists of commands and single ones.
- `readLine`: the commands of the next line of a script.
-/

namespace NativeBuild.Shell

/-- What is read. -/
inductive Goal where
  /-- The commands of one line. -/
  | line
  /-- Commands of which there is at least one. -/
  | body
  /-- Commands, or none. -/
  | branch
  /-- A single command, after ends of lines. -/
  | command
deriving DecidableEq, Repr

/-- More steps than any reading takes. -/
def maxSteps : Nat := Nat.pow 2 60

/-! ## Tokens -/

/-- What is looked for in a token. -/
structure Looking where
  /-- Ends of lines are passed over. -/
  lines : Bool := false
  keywords : Bool := false
  aliases : Bool := false

/-- Where a command may start. -/
def Looking.command : Looking where
  keywords := true
  aliases := true

/-- Where a command may start after ends of lines. -/
def Looking.start : Looking where
  lines := true
  keywords := true
  aliases := true

/-- The last token was not the wanted one. -/
def unexpected {α : Type} (wanted : Option Token := none) : Reader α := do
  let name := (← get).token.name
  match wanted with
  | none => malformed s!"{name} unexpected"
  | some wanted => malformed s!"{name} unexpected (expecting {wanted.name})"

/-- The last token is read once more. -/
def repeatToken : Reader Unit :=
  modify fun r => { r with again := true }

/-- Note what the last token is. -/
def noteToken (token : Token) : Reader Token := do
  modify fun r => { r with token }
  return token

/-- Skip a comment up to the end of its line. -/
def skipComment : Reader Unit :=
  iterate maxSteps (fun () => do
    match ← nextRaw with
    | some '\n' =>
      putBack (some '\n')
      return .inr ()
    | some _ => return .inl ()
    | none => return .inr ()) ()

/-- The first character of the next token. -/
def firstChar : Reader (Option Char) :=
  iterate maxSteps (fun () => do
    match ← next with
    | some ' ' => return .inl ()
    | some '\t' => return .inl ()
    | some '#' =>
      skipComment
      return .inl ()
    | c => return .inr c) ()

/-- A sign that may be written twice. -/
def readSign (text : String) (double : Char) : Reader Token := do
  if ← takeChar double then return .sign (text.push double) else return .sign text

/-- The redirection that starts with a sign. -/
def readRedirectSign (stream : Option Nat) (c : Char) : Reader Token := do
  if c = '>' then
    let stream := stream.getD 1
    if ← takeChar '>' then return .redirect stream (.file .append)
    else if ← takeChar '|' then return .redirect stream (.file .overwrite)
    else if ← takeChar '&' then return .redirect stream .duplicate
    else return .redirect stream (.file .write)
  else
    let stream := stream.getD 0
    if ← takeChar '<' then return .redirect stream (.document (← takeChar '-'))
    else if ← takeChar '&' then return .redirect stream .duplicate
    else if ← takeChar '>' then return .redirect stream (.file .readWrite)
    else return .redirect stream (.file .read)

/-- The stream in front of a redirection sign, if that is all that stands there. -/
def streamOf? : Word → Option (Option Nat)
  | [] => some none
  | [.char c] => if c.isDigit then some (some (c.toNat - 48)) else none
  | _ => none

/-- A word that starts with a character, or the redirection that it belongs to. -/
def readWordToken (x : WordSetting) (closing : Reader Unit) (first : Option Char) :
    Reader Token := do
  let (word, quoted, c) ← readWord x closing .none first
  match c, streamOf? word with
  | some c, some stream =>
    if (c = '>' ∨ c = '<') ∧ !quoted then readRedirectSign stream c
    else
      putBack (some c)
      return .word word quoted
  | c, _ =>
    putBack c
    return .word word quoted

/-- The next token as it stands. -/
def scanToken (x : WordSetting) (closing : Reader Unit) : Reader Token := do
  let r ← get
  if r.again then
    set { r with again := false }
    return r.token
  else
    match ← firstChar with
    | none => noteToken .finish
    | some '\n' =>
      countLine
      noteToken .newline
    | some '&' => noteToken (← readSign "&" '&')
    | some '|' => noteToken (← readSign "|" '|')
    | some ';' => noteToken (← readSign ";" ';')
    | some '(' => noteToken (.sign "(")
    | some ')' => noteToken (.sign ")")
    | c =>
      let token ← readWordToken x closing c
      match token with
      | .word word _ => modify fun r => { r with lastWord := word }
      | _ => pure ()
      noteToken token

/-- Read the texts of the documents that come after the line. -/
def readDocuments (x : WordSetting) (closing : Reader Unit) : Reader Unit := do
  let waiting := (← get).waiting
  modify fun r => { r with waiting := [] }
  waiting.forM fun document => do
    let quoting : Quoting := if document.expanded then .double else .single
    let first ← if document.expanded then next else nextRaw
    let before := (← get).documents
    let (text, _) ← readWord { x with document := some document } closing quoting first
    modify fun r => { r with
      found := (document.number, text) :: r.found
      nested := r.nested + (r.documents - before) }

/-- Put the text of an alias in place of its name; an alias is not replaced in its own
text. -/
def insertAlias (name : String) (r : Reading) : Option Reading :=
  match r.aliases.lookup name with
  | none => none
  | some text =>
    if r.inserted.any fun inserted => inserted.name == name then none
    else if text = "" then some r
    else
      let blankEnded := match text.toList.getLast? with
        | some c => c == ' ' || c == '\t'
        | none => false
      some { r with
        inserted := { name, text := text.toList, blankEnded } :: r.inserted }

/-- The next token. -/
def readToken (x : WordSetting) (closing : Reader Unit) (looking : Looking) : Reader Token :=
  iterate maxSteps (fun () => do
    let token ← iterate maxSteps (fun () => do
      let token ← scanToken x closing
      match token with
      | .newline =>
        if looking.lines then
          readDocuments x closing
          return .inl ()
        else return .inr token
      | _ => return .inr token) ()
    let r ← get
    set { r with aliasNext := false }
    match token with
    | .word word false =>
      match Word.plain? word with
      | some text =>
        if looking.keywords ∧ text ∈ keywords then return .inr (← noteToken (.keyword text))
        else if looking.aliases || r.aliasNext then
          match insertAlias text { r with aliasNext := false } with
          | some r =>
            set r
            return .inl ()
          | none => return .inr token
        else return .inr token
      | none => return .inr token
    | _ => return .inr token) ()

/-! ## Redirections -/

/-- A number of one digit, or the hyphen that closes a stream. -/
def plainSource? : Word → Option (Option Nat)
  | [.char c] =>
    if c.isDigit then some (some (c.toNat - 48)) else if c = '-' then some none else none
  | _ => none

/-- The redirection whose sign was read. -/
def readRedirect (x : WordSetting) (closing : Reader Unit) (stream : Nat)
    (kind : RedirectKind) : Reader Redirect := do
  match kind with
  | .document stripped =>
    match ← readToken { x with literal := true } closing {} with
    | .word word quoted =>
      let r ← get
      let document : Document :=
        { number := r.documents, ending := some (Word.unquoted word), stripped
          expanded := !quoted }
      set { r with documents := r.documents + 1, waiting := r.waiting ++ [document] }
      return .document stream ((r.known.lookup document.number).getD [])
    | _ => unexpected
  | .duplicate =>
    match ← readToken x closing {} with
    | .word word _ =>
      match plainSource? word with
      | some source => return .duplicate stream source
      | none => return .duplicateNamed stream word
    | _ => unexpected
  | .file mode =>
    match ← readToken x closing {} with
    | .word word _ => return .file stream mode word
    | _ => unexpected

/-- The redirections after a command.  A keyword may stand only where there are none. -/
def readRedirects (x : WordSetting) (closing : Reader Unit) : Reader (List Redirect) :=
  iterate maxSteps (fun (found : List Redirect) => do
    let looking : Looking := if found.isEmpty then .command else {}
    match ← readToken x closing looking with
    | .redirect stream kind => return .inl ((← readRedirect x closing stream kind) :: found)
    | _ =>
      repeatToken
      return .inr found.reverse) []

/-! ## Simple commands -/

/-- The names that no function may have. -/
def specialNames : List String :=
  [".", ":", "break", "continue", "eval", "exec", "exit", "export", "local", "readonly",
    "return", "set", "shift", "times", "trap", "unset"]

/-- A command of words that is partly read, with everything in reverse. -/
structure SimpleReading where
  assignments : List Word := []
  words : List Word := []
  redirects : List Redirect := []

/-- The command of what was read. -/
def SimpleReading.toScript (s : SimpleReading) (line : Nat) : Script :=
  .simple line s.assignments.reverse s.words.reverse s.redirects.reverse

/-- The only thing that was read is one word. -/
def SimpleReading.onlyWord? (s : SimpleReading) : Option Word :=
  match s.words, s.assignments, s.redirects with
  | [word], [], [] => some word
  | _, _, _ => none

/-- A function whose name and opening parenthesis were read. -/
def readFunction (self : Goal → Reader Script) (x : WordSetting) (closing : Reader Unit)
    (word : Word) : Reader Script := do
  let token ← readToken x closing {}
  if !token.isSign ")" then unexpected (some (.sign ")"))
  match Word.plain? word with
  | some name =>
    if isName name ∧ name ∉ specialNames then
      return .definition name (← self .command)
    else malformed "Bad function name"
  | none => malformed "Bad function name"

/-- A command of words. -/
def readSimple (self : Goal → Reader Script) (x : WordSetting) (closing : Reader Unit) :
    Reader Script := do
  let line := (← get).line
  iterate maxSteps (fun (s : SimpleReading) => do
    match ← readToken x closing { aliases := s.words.isEmpty } with
    | .word word _ =>
      if s.words.isEmpty && Word.isAssignment word then
        return .inl { s with assignments := word :: s.assignments }
      else return .inl { s with words := word :: s.words }
    | .redirect stream kind =>
      let redirect ← readRedirect x closing stream kind
      return .inl { s with redirects := redirect :: s.redirects }
    | token =>
      match s.onlyWord?, token.isSign "(" with
      | some word, true => return .inr (← readFunction self x closing word)
      | _, _ =>
        repeatToken
        return .inr (s.toScript line)) {}

/-! ## Commands with keywords -/

/-- The next token has to be a certain keyword. -/
def readKeyword (x : WordSetting) (closing : Reader Unit) (looking : Looking)
    (text : String) : Reader Unit := do
  let token ← readToken x closing looking
  if !token.isKeyword text then unexpected (some (.keyword text))

/-- A command that depends on a test, after its first keyword. -/
def readConditional (self : Goal → Reader Script) (x : WordSetting) (closing : Reader Unit) :
    Reader Script := do
  let branch : Reader (Script × Script) := do
    let test ← self .body
    readKeyword x closing {} "then"
    return (test, ← self .body)
  let first ← branch
  let branches ← iterate maxSteps (fun (branches : List (Script × Script)) => do
    let token ← readToken x closing {}
    if token.isKeyword "elif" then return .inl ((← branch) :: branches)
    else return .inr branches) [first]
  let token := (← get).token
  let last ← if token.isKeyword "else" then pure (some (← self .body)) else do
    repeatToken
    pure none
  readKeyword x closing {} "fi"
  let whole := branches.foldl (fun no (test, yes) => some (.conditional test yes no)) last
  return whole.getD .skip

/-- A loop with a test, after its first keyword. -/
def readLoop (self : Goal → Reader Script) (x : WordSetting) (closing : Reader Unit)
    (wanted : Bool) : Reader Script := do
  let test ← self .body
  readKeyword x closing {} "do"
  let body ← self .body
  readKeyword x closing {} "done"
  return .loop wanted test body

/-- The word for all arguments. -/
def allArguments : Word :=
  [.quote, .parameter "@" .value false [], .quote]

/-- The words after the keyword of a list. -/
def readListed (x : WordSetting) (closing : Reader Unit) : Reader (List Word) := do
  let words ← iterate maxSteps (fun (words : List Word) => do
    match ← readToken x closing {} with
    | .word word _ => return .inl (word :: words)
    | _ => return .inr words.reverse) []
  match (← get).token with
  | .newline => return words
  | .sign ";" => return words
  | _ => unexpected

/-- A loop over words, after its first keyword. -/
def readEach (self : Goal → Reader Script) (x : WordSetting) (closing : Reader Unit)
    (line : Nat) : Reader Script := do
  match ← readToken x closing {} with
  | .word word false =>
    let name := (Word.plain? word).getD ""
    if !isName name then malformed "Bad for loop variable"
    let token ← readToken x closing .start
    let words ←
      if token.isKeyword "in" then readListed x closing
      else do
        if !token.isSign ";" then repeatToken
        pure [allArguments]
    readKeyword x closing .start "do"
    let body ← self .body
    readKeyword x closing {} "done"
    return .each line name words body
  | _ => malformed "Bad for loop variable"

/-- The patterns of an arm, the first of which was read. -/
def readPatterns (x : WordSetting) (closing : Reader Unit) : Reader (List Word) :=
  iterate maxSteps (fun (patterns : List Word) => do
    let patterns := (← get).lastWord :: patterns
    let token ← readToken x closing {}
    if token.isSign "|" then
      let _ ← readToken x closing {}
      return .inl patterns
    else if token.isSign ")" then return .inr patterns.reverse
    else unexpected (some (.sign ")"))) []

/-- The arms of a choice. -/
def readArms (self : Goal → Reader Script) (x : WordSetting) (closing : Reader Unit) :
    Reader (List (List Word × Script)) := do
  let looking : Looking := { lines := true, keywords := true }
  iterate maxSteps (fun (arms : List (List Word × Script)) => do
    let token ← readToken x closing looking
    if token.isKeyword "esac" then return .inr arms.reverse
    else
      if token.isSign "(" then let _ ← readToken x closing {}
      let patterns ← readPatterns x closing
      let arms := (patterns, ← self .branch) :: arms
      let token ← readToken x closing looking
      if token.isKeyword "esac" then return .inr arms.reverse
      else if token.isSign ";;" then return .inl arms
      else unexpected (some (.sign ";;"))) []

/-- A choice, after its first keyword. -/
def readChoice (self : Goal → Reader Script) (x : WordSetting) (closing : Reader Unit)
    (line : Nat) : Reader Script := do
  match ← readToken x closing {} with
  | .word subject _ =>
    readKeyword x closing .start "in"
    return .choice line subject (← readArms self x closing)
  | _ => unexpected (some (.word [] false))

/-- Commands between two tokens, the first of which was read. -/
def readGroup (self : Goal → Reader Script) (x : WordSetting) (closing : Reader Unit)
    (wanted : Token) (isWanted : Token → Bool) : Reader Script := do
  let body ← self .body
  let token ← readToken x closing {}
  if !isWanted token then unexpected (some wanted)
  return body

/-- The command with its redirections. -/
def withRedirects (line : Nat) (command : Script) (redirects : List Redirect) : Script :=
  match command, redirects with
  | command, [] => command
  | .subshell line body _, redirects => .subshell line body redirects
  | command, redirects => .redirected line command redirects

/-- A single command. -/
def readCommand (self : Goal → Reader Script) (x : WordSetting) (closing : Reader Unit)
    (looking : Looking) : Reader Script := do
  let line := (← get).line
  let redirected (command : Reader Script) : Reader Script := do
    let command ← command
    return withRedirects line command (← readRedirects x closing)
  match ← readToken x closing looking with
  | .keyword "if" => redirected (readConditional self x closing)
  | .keyword "while" => redirected (readLoop self x closing true)
  | .keyword "until" => redirected (readLoop self x closing false)
  | .keyword "for" => redirected (readEach self x closing line)
  | .keyword "case" => redirected (readChoice self x closing line)
  | .keyword "\x7b" =>
    redirected (readGroup self x closing (.keyword "\x7d") fun t => t.isKeyword "\x7d")
  | .sign "(" =>
    redirected do
      return .subshell line
        (← readGroup self x closing (.sign ")") fun t => t.isSign ")") []
  | .word .. =>
    repeatToken
    readSimple self x closing
  | .redirect .. =>
    repeatToken
    readSimple self x closing
  | _ => unexpected

/-! ## Lists of commands -/

/-- Commands of which each reads what the one before it writes. -/
def readPipeline (self : Goal → Reader Script) (x : WordSetting) (closing : Reader Unit)
    (looking : Looking) : Reader Script := do
  let token ← readToken x closing looking
  let negated := token.isKeyword "!"
  if !negated then repeatToken
  let first ← readCommand self x closing (if negated then .command else {})
  let commands ← iterate maxSteps (fun (commands : List Script) => do
    let token ← readToken x closing {}
    if token.isSign "|" then
      return .inl ((← readCommand self x closing .start) :: commands)
    else
      repeatToken
      return .inr commands.reverse) [first]
  let whole : Script := match commands with
    | [command] => command
    | commands => .pipeline false commands
  return if negated then .negated whole else whole

/-- Commands that run after success or failure of the one before. -/
def readAndOr (self : Goal → Reader Script) (x : WordSetting) (closing : Reader Unit) :
    Reader Script := do
  let first ← readPipeline self x closing {}
  iterate maxSteps (fun (before : Script) => do
    let token ← readToken x closing {}
    if token.isSign "&&" then
      return .inl (.both before (← readPipeline self x closing .start))
    else if token.isSign "||" then
      return .inl (.either before (← readPipeline self x closing .start))
    else
      repeatToken
      return .inr before) first

/-- The command, not waited for. -/
def inBackground (line : Nat) : Script → Script
  | .pipeline _ commands => .pipeline true commands
  | .redirected line body redirects => .background line body redirects
  | command => .background line command []

/-- The commands, and one more after them. -/
def Script.after (before command : Script) : Script :=
  match before with
  | .skip => command
  | before => .sequence before command

/-- A list of commands. -/
def readList (self : Goal → Reader Script) (x : WordSetting) (closing : Reader Unit)
    (goal : Goal) : Reader Script :=
  iterate maxSteps (fun (point : Script × Bool) => do
    let (before, mayEnd) := point
    let token ← readToken x closing { Looking.command with lines := goal ≠ .line }
    match token with
    | .newline =>
      readDocuments x closing
      return .inr before
    | .finish =>
      readDocuments x closing
      repeatToken
      return .inr before
    | _ =>
      repeatToken
      if mayEnd && token.endsList then return .inr before
      else
        let command ← readAndOr self x closing
        let line := (← get).line
        let token ← readToken x closing {}
        let command := if token.isSign "&" then inBackground line command else command
        let whole := before.after command
        let mayEnd := goal ≠ .line
        match token with
        | .finish =>
          readDocuments x closing
          let _ ← noteToken .finish
          repeatToken
          return .inr whole
        | .newline =>
          repeatToken
          return .inl (whole, mayEnd)
        | .sign "&" => return .inl (whole, mayEnd)
        | .sign ";" => return .inl (whole, mayEnd)
        | _ =>
          if goal = .line then unexpected
          else
            repeatToken
            return .inr whole) (.skip, goal == .branch)

/-! ## Scripts -/

/-- Read the parenthesis that closes a script. -/
def readClosing (x : WordSetting) : Reader Unit := do
  let token ← readToken x (return ()) {}
  if !token.isSign ")" then unexpected (some (.sign ")"))

/-- Read towards a goal; what stands inside is read by `self`. -/
def readGoal (self : Goal → Reader Script) (goal : Goal) : Reader Script :=
  let x : WordSetting := { script := self .branch, steps := maxSteps }
  let closing := readClosing x
  match goal with
  | .command => readCommand self x closing .start
  | goal => readList self x closing goal

/-- Read towards a goal, with so much inside each other at most. -/
def readNested : Nat → Goal → Reader Script
  | 0, _ => malformed "too deeply nested"
  | depth + 1, goal => readGoal (readNested depth) goal

/-- Read all that is left as a text with expansions. -/
def readText : Reader Word := do
  let document : Document := { number := 0, ending := none, stripped := false, expanded := true }
  let x : WordSetting := { script := readNested maxSteps .branch, steps := maxSteps }
  let (text, _) ←
    readWord { x with document := some document } (readClosing x) .double (← next)
  return text

/-- What the reading of a line gives. -/
inductive LineRead where
  /-- The script ends. -/
  | finish (rest : Reading)
  /-- The commands of the line, and the reading after it. -/
  | commands (script : Script) (rest : Reading)
  /-- The script cannot be read on, and in which line that is. -/
  | malformed (failed : Malformed) (rest : Reading)

/-- The reading at the start of a line. -/
def Reading.atLine (r : Reading) : Reading :=
  { r with
    lineEnded := false, moreLines := 0, token := .newline, again := false, aliasNext := false
    waiting := [], documents := 0, found := [], nested := 0, known := [], lastWord := [] }

/-- Read a line again, so many times, with the texts of documents that were found. -/
def readAgain (start : Reading) : Nat → LineRead → LineRead
  | n + 1, .commands _ rest => readAgain start n (readOnce { start with known := rest.found })
  | _, result => result
where
  /-- Read a line, which may be the end. -/
  readOnce (start : Reading) : LineRead :=
    match readNested maxSteps .line start with
    | .ok script rest =>
      match script, rest.token with
      | .skip, .finish => .finish rest
      | script, _ => .commands script rest
    | .error failed rest => .malformed failed rest

/-- Read the commands of the next line.  A line with documents is read twice, since their
texts come after the commands that they belong to, and once more for every document that
stands in the text of another one. -/
def readLine (r : Reading) : LineRead :=
  let start := r.atLine
  match readAgain.readOnce start with
  | .commands script rest =>
    let times := if rest.found.isEmpty then 0 else rest.nested + 1
    readAgain start times (.commands script rest)
  | result => result

end NativeBuild.Shell
