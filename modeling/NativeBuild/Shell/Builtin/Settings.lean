import NativeBuild.Shell.Builtin.Flags
import NativeBuild.Shell.Fields

/-!
# Commands about variables and arguments

The commands `export`, `readonly`, `local`, `unset`, `set`, `shift`, `read` and `getopts`.

Main definitions:

- `markVariables`, `declareLocal`, `unset` and `setCommand`: variables and options.
- `shift` and `getopts`: arguments.
- `readLineCells` and `readInput`: a line of the input and its fields.
-/

namespace NativeBuild.Shell

/-! ## Variables -/

/-- The commands `export` and `readonly`.  After the flag `p` no other field counts. -/
def markVariables (name : String) (fields : List String) : Act Nat := do
  let marks : VariableMarks :=
    if name = "readonly" then { readonly := true } else { exported := true }
  let names ←
    if startsWithFlag 'p' fields then pure [] else withoutFlags fields
  if names = [] then
    showVariables name fun v => (marks.readonly && v.readonly) || (marks.exported && v.exported)
  else
    names.forM fun text => do
      let (name, value) := splitAssignment text
      match value, (← self).variableAt? name with
      | none, some v =>
        update fun p => p.put name
          { v with
            exported := v.exported || marks.exported
            readonly := v.readonly || marks.readonly }
      | value, _ => setVariable name value marks
  return 0

/-- The command `local`. -/
def declareLocal (fields : List String) : Act Nat := do
  if (← self).locals = [] then fault "not in a function"
  else
    fields.forM fun text => makeLocal text false
    return 0

/-- The command `unset`. -/
def unset (fields : List String) : Act Nat := do
  let (flags, names) ← readFlags { letters := ['v', 'f'] } fields
  let ofFunction := flags.getLast?.map (·.letter) == some 'f'
  names.forM fun name =>
    if ofFunction then
      update fun p => { p with functions := p.functions.filter fun entry => entry.1 != name }
    else unsetVariable (nameIn name)
  return 0

/-! ## Options -/

/-- Turn an option on or off. -/
def switchSetting (setting : Setting) (on : Bool) : Act Unit :=
  update fun p =>
    let p := { p.withSetting setting on with unsettled := p.unsettled.filter (· != setting) }
    if on ∧ setting = .vi then p.withSetting .emacs false
    else if on ∧ setting = .emacs then p.withSetting .vi false
    else p

/-- Show the options, as commands or in a table.  One that is not settled counts as on. -/
def showSettings (on : Bool) : Act Unit := do
  let p ← self
  if on then say "Current option settings\n"
  Setting.all.forM fun setting => do
    let active := p.has setting || p.unsettled.contains setting
    if on then say (padded 16 setting.name ++ (if active then "on\n" else "off\n"))
    else say ("set " ++ (if active then "-o " else "+o ") ++ setting.name ++ "\n")

/-- Turn the option with a name on or off; without a name the options are shown. -/
def switchNamed (name : Option String) (on : Bool) : Act Unit :=
  match name with
  | none => showSettings on
  | some name =>
    match Setting.ofName? name with
    | some setting => switchSetting setting on
    | none => fault s!"Illegal option -o {name}"

/-- Turn the options of some letters on or off; the letter `o` takes a name from the fields
that follow, which are given back. -/
def switchLetters (on : Bool) : List Char → List String → Act (List String)
  | [], rest => return rest
  | c :: cs, rest => do
    if c = 'o' then
      switchNamed rest.head? on
      switchLetters on cs rest.tail
    else
      match Setting.ofLetter? c with
      | some setting =>
        switchSetting setting on
        switchLetters on cs rest
      | none => fault s!"Illegal option -{c}"

/-- The process with other arguments. -/
def Process.withArguments (p : Process) (arguments : List String) : Process :=
  { p with arguments, optionIndex := 1, optionOffset := none }

/-- Set options and arguments, from at most so many fields. -/
def setFields : Nat → List String → Act Unit
  | 0, _ => return ()
  | n + 1, fields => do
    match fields with
    | [] => return ()
    | "-" :: rest =>
      update fun p => (p.withSetting .xtrace false).withSetting .verbose false
      if rest ≠ [] then update fun p => p.withArguments rest
    | "--" :: rest => update fun p => p.withArguments rest
    | field :: rest =>
      match field.toList with
      | '-' :: letters => setFields n (← switchLetters true letters rest)
      | '+' :: letters => setFields n (← switchLetters false letters rest)
      | _ => update fun p => p.withArguments fields

/-- There is no terminal for jobs, which matters to the shell that is no child of another. -/
def refuseMonitor : Act Unit := do
  let p ← self
  if p.has .monitor && p.number == p.root then
    warn "can't access tty; job control turned off"
    switchSetting .monitor false

/-- The command `set`. -/
def setCommand (fields : List String) : Act Nat := do
  if fields = [] then showVariables "" fun v => v.value.isSome
  else
    setFields fields.length fields
    refuseMonitor
  return 0

/-! ## Arguments -/

/-- The command `shift`. -/
def shift (fields : List String) : Act Nat := do
  let n ← match fields with
    | [] => pure 1
    | text :: _ => requireNumber text
  let p ← self
  if p.arguments.length < n then fault "can't shift that many"
  else
    update fun p => p.withArguments (p.arguments.drop n)
    return 0

/-- What `getopts` finds. -/
structure FoundOption where
  letter : Char := '?'
  /-- The argument of the option; none where it is forgotten. -/
  argument : Option String := some ""
  message : Option String := none
  /-- The next argument, and the rest of the one before. -/
  index : Nat
  rest : Option (List Char) := none
  done : Bool := false

/-- The option after a hyphen. -/
def optionIn (known : List Char) (index : Nat) (next : Option String) (c : Char)
    (cs : List Char) : FoundOption :=
  let silent := known.head? == some ':'
  let after := (known.dropWhile (· == ':')).dropWhile (· != c)
  match after with
  | [] =>
    if silent then
      { argument := some (String.singleton c), index, rest := some cs }
    else
      { argument := none, message := some s!"Illegal option -{c}\n", index, rest := some cs }
  | _ :: ':' :: _ =>
    match cs, next with
    | [], none =>
      if silent then { letter := ':', argument := some (String.singleton c), index }
      else { argument := none, message := some s!"No arg for -{c} option\n", index }
    | [], some next => { letter := c, argument := some next, index := index + 1 }
    | cs, _ => { letter := c, argument := some (String.ofList cs), index }
  | _ => { letter := c, index, rest := some cs }

/-- The next option among some arguments. -/
def nextOption (known : List Char) (arguments : List String) (index : Nat)
    (offset : Option Nat) : FoundOption :=
  let before : List Char :=
    match offset, index with
    | some offset, index + 2 => (arguments[index]?.getD "").toList.drop offset
    | _, _ => []
  match before with
  | c :: cs => optionIn known index arguments[index - 1]? c cs
  | [] =>
    match arguments[index - 1]? with
    | none => { index, done := true }
    | some field =>
      match field.toList with
      | ['-', '-'] => { index := index + 1, done := true }
      | '-' :: c :: cs => optionIn known (index + 1) arguments[index]? c cs
      | _ => { index, done := true }

/-- The command `getopts`. -/
def getopts (fields : List String) : Act Nat := do
  match fields with
  | known :: name :: given =>
    let p ← self
    let arguments := if given = [] then p.arguments else given
    let fresh := arguments.length + 1 < p.optionIndex
    let index := if fresh then 1 else p.optionIndex
    let offset := if fresh then none else p.optionOffset
    let found := nextOption known.toList arguments index offset
    if !found.done then
      match found.message with
      | some text => sayError text
      | none => pure ()
      setVariable "OPTARG" found.argument
    update fun p =>
      let old := (p.variableAt? "OPTIND").getD { value := none, lasting := true }
      p.put "OPTIND" { old with value := some (toString found.index) }
    setVariable (nameIn name) (some (String.singleton found.letter))
    let length := (arguments[found.index - 2]?.getD "").length
    update fun p => { p with
      optionIndex := found.index
      optionOffset := found.rest.map fun cs => length - cs.length }
    return if found.done then 1 else 0
  | _ => fault "Usage: getopts optstring var [arg...]"

/-! ## Input -/

/-- A line of the input that is partly read. -/
structure LineCells where
  cells : Array Cell := #[]
  stretches : Array Stretch := #[]
  /-- Where the stretch starts that is not closed yet. -/
  start : Nat := 0
  /-- How many bytes were read. -/
  count : Nat := 0
  /-- The line came to its end. -/
  ended : Bool := false

namespace LineCells

/-- The line with one more character. -/
def put (line : LineCells) (c : Char) : LineCells :=
  { line with cells := line.cells.push (.char c false) }

/-- The line with a stretch that ends at a place, and a new one from here on. -/
def cut (line : LineCells) (stop : Nat) : LineCells :=
  { line with
    stretches := line.stretches.push ⟨line.start, stop, false⟩, start := line.cells.size }

/-- The line with so many more bytes read. -/
def counted (line : LineCells) (n : Nat) : LineCells :=
  { line with count := line.count + n }

end LineCells

/-- The line at the front of what is to be read.  A backslash, unless it is `raw`, takes its
meaning from the next character, also from the end of the line. -/
def readLineCells (raw : Bool) : List UInt8 → LineCells → LineCells
  | [], line => line.cut line.cells.size
  | byte :: rest, line =>
    let c := Char.ofNat byte.toNat
    if byte = 0 then readLineCells raw rest (line.counted 1)
    else if c = '\n' then
      { (line.cut line.cells.size).counted 1 with ended := true }
    else if c = '\\' ∧ !raw then
      match rest with
      | [] => (line.cut line.cells.size).counted 1
      | next :: rest =>
        let place := line.cells.size
        let d := Char.ofNat next.toNat
        if d = '\n' then readLineCells raw rest ((line.cut place).counted 2)
        else readLineCells raw rest (((line.put d).cut place).counted 2)
    else readLineCells raw rest ((line.put c).counted 1)

/-- The command `read`. -/
def readInput (fields : List String) : Act Nat := do
  let (flags, names) ← readFlags { letters := ['r'], withArgument := ['p'] } fields
  if names = [] then fault "arg count"
  else
    let w ← get
    let stream := w.process.stream? 0
    let bytes := (stream.bind w.machine.pending).getD []
    let line := readLineCells (flags.any fun flag => flag.letter == 'r') bytes {}
    match stream with
    | some stream => updateMachine fun m => m.advance stream line.count
    | none => pure ()
    let found := splitFields w.process.separators (some names.length) line.cells
      line.stretches.toList
    let values := found.map fun cells => String.ofList (charsOf cells)
    (names.zip (values ++ List.replicate names.length "")).forM fun (name, value) =>
      setVariable (nameIn name) (some value)
    return if line.ended then 0 else 1

end NativeBuild.Shell
