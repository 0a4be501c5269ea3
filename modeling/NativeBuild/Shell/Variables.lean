import NativeBuild.Host.System
import NativeBuild.Shell.Messages

/-!
# Variables of the shell

Setting and forgetting variables, and variables that last as long as a function runs.

Main definitions:

- `VariableMarks`: what a variable is marked with when it is set.
- `changeVariable`, `setVariable` and `unsetVariable`: setting and forgetting.
- `nameIn`: the name in a text of the form `name=value`.
- `makeLocal` and `withLocals`: variables of functions.
- `environmentOf`: what other programs see.
-/

namespace NativeBuild.Shell

/-! ## Lists of variables -/

/-- The variables with one of them replaced or added. -/
def replaced (name : String) (v : Variable) :
    List (String × Variable) → List (String × Variable)
  | [] => [(name, v)]
  | (other, old) :: rest =>
    if other = name then (name, v) :: rest else (other, old) :: replaced name v rest

namespace Process

/-- The process with a variable. -/
def put (p : Process) (name : String) (v : Variable) : Process :=
  { p with bindings := replaced name v p.bindings }

/-- The process without a variable. -/
def drop (p : Process) (name : String) : Process :=
  { p with bindings := p.bindings.filter fun entry => entry.1 != name }

end Process

/-! ## Setting -/

/-- What a variable is marked with when it is set. -/
structure VariableMarks where
  exported : Bool := false
  readonly : Bool := false
  lasting : Bool := false

/-- The number that a text spells, with blanks around it. -/
def wholeNumber? (text : String) : Option Int :=
  match numberFront? text.toList with
  | some (n, rest) =>
    if rest.all isSpace ∧ minNumber ≤ n ∧ n ≤ maxNumber then some n else none
  | none => none

/-- The number that decimal digits spell, with blanks around them. -/
def decimalNumber? (text : String) : Option Int :=
  let cs := text.toList.dropWhile isSpace
  let (negative, body) :=
    match cs with
    | '-' :: body => (true, body)
    | '+' :: body => (false, body)
    | body => (false, body)
  let digits := body.takeWhile Char.isDigit
  let n := signed negative (numberIn 10 digits)
  if digits ≠ [] ∧ (body.dropWhile Char.isDigit).all isSpace ∧ minNumber ≤ n ∧ n ≤ maxNumber
  then some n else none

/-- A text has to be a number that is not negative. -/
def requireNumber (text : String) : Act Nat :=
  match decimalNumber? text with
  | some n =>
    if 0 ≤ n ∧ n < (Nat.pow 2 31 : Int) then return n.toNat else fault s!"Illegal number: {text}"
  | none => fault s!"Illegal number: {text}"

/-- What depends on a variable that gets a value, or none. -/
def noteChange (name : String) (value : Option String) : Act Unit := do
  if name = "PATH" then update fun p => { p with hashed := [] }
  else if name = "OPTIND" then
    let n ← requireNumber (value.getD "")
    update fun p => { p with optionIndex := max n 1, optionOffset := none }

/-- Give a variable a value, or forget its value, and mark it, whatever its name. -/
def changeVariable (name : String) (value : Option String) (marks : VariableMarks := {}) :
    Act Unit := do
  let p ← self
  let exported := marks.exported || (p.has .allexport && value.isSome)
  match p.variableAt? name with
  | some old =>
    if old.readonly then fault s!"{name}: is read only"
    noteChange name value
    let kept := exported || marks.readonly || marks.lasting || old.lasting
    if value.isNone && !kept then update fun p => p.drop name
    else
      update fun p => p.put name
        { value
          exported := old.exported || exported
          readonly := marks.readonly
          lasting := old.lasting || marks.lasting }
  | none =>
    noteChange name value
    if value.isSome || exported || marks.readonly || marks.lasting then
      update fun p => p.put name
        { value, exported, readonly := marks.readonly, lasting := marks.lasting }

/-- Give a variable a value, or forget its value, and mark it. -/
def setVariable (name : String) (value : Option String) (marks : VariableMarks := {}) :
    Act Unit := do
  if !isName name then fault s!"{name}: bad variable name"
  changeVariable name value marks

/-- Forget a variable. -/
def unsetVariable (name : String) : Act Unit :=
  setVariable name none

/-- The name of a text of the form `name=value`, and the value; all of it is the name where
there is no equals sign. -/
def splitAssignment (text : String) : String × Option String :=
  let cs := text.toList
  let name := String.ofList (cs.takeWhile (· != '='))
  match cs.dropWhile (· != '=') with
  | [] => (name, none)
  | _ :: value => (name, some (String.ofList value))

/-- The name in a text of the form `name` or `name=value`. -/
def nameIn (text : String) : String :=
  (splitAssignment text).1

/-! ## Local variables -/

/-- Note what a variable was before. -/
def noteFormer (former : Former) : Act Unit :=
  update fun p => { p with
    locals := match p.locals with
      | [] => []
      | inner :: outer => (former :: inner) :: outer }

/-- Make a variable local, by a text of the form `name` or `name=value`; a hyphen stands
for the options.  Only a variable without a value needs a proper name. -/
def makeLocal (text : String) (exported : Bool) : Act Unit := do
  if text = "-" then noteFormer (.settings (← self).settings)
  else
    let (name, value) := splitAssignment text
    match (← self).variableAt? name with
    | some old =>
      if value.isSome then
        update fun p => p.put name { old with lasting := true }
        changeVariable name value { exported }
      else update fun p => p.put name { old with lasting := true }
      noteFormer (.variable name (some old))
    | none =>
      let marks : VariableMarks := { exported, lasting := true }
      if value.isSome then changeVariable name value marks else setVariable name value marks
      noteFormer (.variable name none)

/-- Give back what was local.  A new variable can be forgotten only if its name is proper. -/
def restoreFormer : Former → Act Unit
  | .settings before => update fun p => { p with settings := before }
  | .variable name none => do
    if !isName name then fault s!"{name}: bad variable name"
    update fun p => p.drop name
  | .variable name (some old) => do
    noteChange name old.value
    update fun p => p.put name old

/-- Take an action, with local variables of its own if it should have some.  Those that are
new after it are given back; they stay where the shell ends. -/
def withLocals {α : Type} (own : Bool) (act : Act α) : Act α := do
  let depth := (← self).locals.length
  if own then update fun p => { p with locals := [] :: p.locals }
  let a ← act
  let locals := (← self).locals
  update fun p => { p with locals := locals.drop (locals.length - depth) }
  (locals.take (locals.length - depth)).flatten.forM restoreFormer
  return a

/-! ## Listing -/

/-- The variables in the order of their names. -/
def sortedVariables (p : Process) : List (String × Variable) :=
  p.bindings.mergeSort fun a b => decide (a.1 ≤ b.1)

/-- Show variables that satisfy a test, each behind a word. -/
def showVariables (front : String) (test : Variable → Bool) : Act Unit := do
  let p ← self
  let front := if front = "" then "" else front ++ " "
  (sortedVariables p).forM fun (name, v) => do
    if test v then
      match p.value? name, v.value with
      | some value, some _ => say s!"{front}{name}={singleQuoted value}\n"
      | _, _ => say s!"{front}{name}\n"

/-- What other programs see of the variables. -/
def environmentOf (p : Process) : List (String × String) :=
  p.bindings.filterMap fun (name, v) =>
    if v.exported then (p.value? name).map fun value => (name, value) else none

/-- The variables of a shell that starts, beside those that it is given. -/
def initialVariables (parent : Nat) : List (String × Variable) :=
  let fixed (name value : String) : String × Variable :=
    (name, { value := some value, lasting := true })
  [fixed "IFS" " \t\n", fixed "OPTIND" "1", fixed "PATH" defaultSearchPath,
    fixed "PPID" (toString parent), fixed "PS1" "# ", fixed "PS2" "> ", fixed "PS4" "+ "]

end NativeBuild.Shell
