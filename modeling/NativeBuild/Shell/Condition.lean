import NativeBuild.Shell.Device
import NativeBuild.Shell.Variables

/-!
# Conditions

What `test` finds out about texts, numbers and files.  Conditions of up to four fields are
read by their number first; longer ones have operators that join and negate.

Main definitions:

- `Operator`: an operator of a condition.
- `subjectTest` and `comparison`: what operators find out.
- `condition`: whether the fields of a condition hold.
-/

namespace NativeBuild.Shell

/-! ## Operators -/

/-- The kinds of operators. -/
inductive Operator where
  /-- It stands in front of a field. -/
  | unary
  /-- It stands between two fields. -/
  | binary
  | negation
  | conjunction
  | disjunction
  | opening
  | closing
deriving DecidableEq, Repr

/-- The operators in front of fields. -/
def unaryOperators : List String :=
  ["-r", "-w", "-x", "-e", "-f", "-d", "-c", "-b", "-p", "-u", "-g", "-k", "-s", "-t", "-z",
    "-n", "-h", "-O", "-G", "-L", "-S"]

/-- The operators between fields. -/
def binaryOperators : List String :=
  ["=", "!=", "<", ">", "-eq", "-ne", "-ge", "-gt", "-le", "-lt", "-nt", "-ot", "-ef"]

/-- The operator that a field may be. -/
def operator? (field : String) : Option Operator :=
  if field ∈ unaryOperators then some .unary
  else if field ∈ binaryOperators then some .binary
  else if field = "!" then some .negation
  else if field = "-a" then some .conjunction
  else if field = "-o" then some .disjunction
  else if field = "(" then some .opening
  else if field = ")" then some .closing
  else none

/-- A field in front of others is meant as a text although it is an operator. -/
def isOperand : List String → Bool
  | [] => true
  | [_] => false
  | next :: _ :: _ => operator? next == some .binary

/-- The operator in front of the fields, if it is meant as one. -/
def leading? : List String → Option Operator
  | [] => none
  | field :: rest =>
    match operator? field with
    | some .unary => if isOperand rest then none else some .unary
    | some .opening => if rest = [] then none else some .opening
    | other => other

/-! ## Tests -/

/-- A field has to be a number. -/
def numberField (field : String) : Act Int :=
  match decimalNumber? field with
  | some n => return n
  | none => fault s!"Illegal number: {field}"

/-- What is at a path, for the process that acts. -/
def subjectHere (path : String) : Act Subject := do
  let w ← get
  return w.machine.subjectAt (w.process.files w.machine) w.process.descriptors path

/-- A test finds a link at a path. -/
def isLink (path : String) : Act Bool := do
  if (ownStream? path).isSome then return (← subjectHere path) != .nothing
  else
    match (← filesHere).locate .entry (pathOf path) with
    | .ok (.present _ (.link _)) => return true
    | _ => return false

/-- What a test finds out about what is at a path. -/
def subjectTest (operator : String) : Subject → Bool
  | .nothing => false
  | .file position content =>
    if operator = "-s" then !content.isEmpty
    else if operator = "-x" then (utilityOf? position).isSome
    else operator ∈ ["-e", "-f", "-r", "-w", "-O", "-G"]
  | .directory _ => operator ∈ ["-d", "-e", "-r", "-w", "-x", "-s", "-O", "-G"]
  | .device _ => operator ∈ ["-c", "-e", "-r", "-w", "-O", "-G"]
  | .pipe => operator ∈ ["-p", "-e", "-r", "-w", "-O", "-G"]

/-- What an operator between two fields finds out. -/
def comparison (a operator b : String) : Act Bool := do
  let numbers (compare : Int → Int → Bool) : Act Bool := do
    let n ← numberField a
    return compare n (← numberField b)
  if operator = "=" then return a == b
  else if operator = "!=" then return a != b
  else if operator = "<" then return decide (a < b)
  else if operator = ">" then return decide (b < a)
  else if operator = "-eq" then numbers fun n m => n == m
  else if operator = "-ne" then numbers fun n m => n != m
  else if operator = "-ge" then numbers fun n m => m ≤ n
  else if operator = "-gt" then numbers fun n m => m < n
  else if operator = "-le" then numbers fun n m => n ≤ m
  else if operator = "-lt" then numbers fun n m => n < m
  else if operator = "-ef" then return (← subjectHere a).isSame (← subjectHere b)
  else return false

/-- What an operator in front of a field finds out. -/
def unaryTest (operator field : String) : Act Bool := do
  if operator = "-z" then return field == ""
  else if operator = "-n" then return field != ""
  else if operator = "-t" then
    let _ ← numberField field
    return false
  else if operator ∈ ["-h", "-L"] then isLink field
  else return subjectTest operator (← subjectHere field)

/-! ## Conditions -/

/-- Whether a condition holds, and the fields from the last one that belongs to it on. -/
abbrev Judged := Bool × List String

/-- How conditions are read inside each other. -/
abbrev Judge := Option Operator → List String → Act Judged

/-- The condition in front of the fields that has no joints outside parentheses. -/
def judgeSingle (whole : Judge) (operator : Option Operator) (fields : List String) :
    Act Judged := do
  match fields with
  | [] => return (false, [])
  | field :: rest =>
    match operator with
    | some .opening =>
      let inner := leading? rest
      if inner = some .closing then return (false, rest)
      else
        let (holds, after) ← whole inner rest
        let after := after.tail
        if leading? after = some .closing then return (holds, after)
        else fault "closing paren expected"
    | some .unary =>
      match rest with
      | [] => fault s!"{field}: argument expected"
      | operand :: _ => return (← unaryTest field operand, rest)
    | _ =>
      match leading? rest, rest with
      | some .binary, sign :: after =>
        match after with
        | [] => fault s!"{sign}: argument expected"
        | operand :: _ => return (← comparison field sign operand, after)
      | _, _ => return (field != "", fields)

/-- A condition with negations in front. -/
def judgeNegated (whole : Judge) : Nat → Judge
  | 0, operator, fields => judgeSingle whole operator fields
  | fuel + 1, operator, fields => do
    match operator with
    | some .negation =>
      let rest := fields.tail
      if rest = [] then return (true, fields)
      else
        let (holds, after) ← judgeNegated whole fuel (leading? rest) rest
        return (!holds, after)
    | operator => judgeSingle whole operator fields

/-- Conditions joined by an operator. -/
def judgeJoined (joint : Operator) (part : Judge) (join : Bool → Bool → Bool) :
    Nat → Judge
  | 0, operator, fields => part operator fields
  | fuel + 1, operator, fields => do
    let (holds, after) ← part operator fields
    let rest := after.tail
    if leading? rest = some joint then
      let next := rest.tail
      let (more, after) ← judgeJoined joint part join fuel (leading? next) next
      return (join holds more, after)
    else return (holds, after)

/-- A whole condition, at most so deep. -/
def judgeWhole : Nat → Judge
  | 0, _, fields => return (false, fields)
  | depth + 1, operator, fields =>
    let fuel := fields.length
    let single := judgeNegated (judgeWhole depth) fuel
    let both := judgeJoined .conjunction single (· && ·) fuel
    judgeJoined .disjunction both (· || ·) fuel operator fields

/-- A condition read as a whole; nothing may be left after it. -/
def judgeAll (operator : Option Operator) (fields : List String) : Act Bool := do
  let (holds, after) ← judgeWhole (fields.length + 1) operator fields
  match after with
  | field :: _ :: _ =>
    if field = "" then fault "unexpected operator" else fault s!"{field}: unexpected operator"
  | _ => return holds

/-- Whether fields have the wanted outcome, by their number first: three may be a
comparison, and negation and parentheses around three or four count before other operators.
A second negation there counts no more. -/
def judgeByNumber : Nat → Bool → List String → Act Bool
  | 0, _, _ => return false
  | fuel + 1, wanted, fields => do
    let plain : Act Bool := do
      return (← judgeAll (leading? fields) fields) == wanted
    let bracketed : Act Bool := do
      match fields with
      | "!" :: rest => judgeByNumber fuel false rest
      | "(" :: rest =>
        if rest.getLast? = some ")" then
          let inner := rest.dropLast
          return (← judgeAll (leading? inner) inner) == wanted
        else plain
      | _ => plain
    match fields with
    | [] => return !wanted
    | [_, sign, _] =>
      if operator? sign = some .binary then
        return (← judgeAll none fields) == wanted
      else bracketed
    | [_, _, _, _] => bracketed
    | _ => plain

/-- Whether the fields of a condition hold. -/
def condition (fields : List String) : Act Bool :=
  judgeByNumber (fields.length + 1) true fields

end NativeBuild.Shell
