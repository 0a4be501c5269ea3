import NativeBuild.Shell.Variables

/-!
# Arithmetic

Expressions over numbers of 64 bits that may read and set variables.  What does not count,
such as the second operand of `0 && x`, is read and has no effect.

Main definitions:

- `arithmeticTokens`: the tokens of an expression.
- `binaryValue`: what a binary operator gives.
- `evaluate`: the value of an expression.
-/

namespace NativeBuild.Shell

/-! ## Tokens -/

/-- The bytes of an expression that count: neither 136, nor 129 in front of another one. -/
def countingBytes : List Char → List Char
  | '\x81' :: c :: rest => c :: countingBytes rest
  | '\x88' :: rest => countingBytes rest
  | c :: rest => if c = '\x81' then [] else c :: countingBytes rest
  | [] => []

/-- A token of an expression. -/
inductive ArithmeticToken where
  | number (n : Int)
  | name (text : String)
  | sign (text : String)
  /-- A character that has no meaning. -/
  | unknown
deriving DecidableEq, Repr

/-- The signs of expressions, longer ones first. -/
def arithmeticSigns : List String :=
  ["<<=", ">>=", "<<", ">>", "<=", ">=", "==", "!=", "&&", "||", "*=", "/=", "%=", "+=", "-=",
    "&=", "^=", "|=", "<", ">", "=", "!", "&", "|", "^", "~", "*", "/", "%", "+", "-", "?", ":",
    "(", ")"]

/-- The sign at the front, and what follows it. -/
def signFront? (cs : List Char) : Option (String × List Char) :=
  (arithmeticSigns.find? fun sign => sign.toList.isPrefixOf cs).map fun sign =>
    (sign, cs.drop sign.length)

/-- The token at the front, and how many characters it has; a blank is no token. -/
def arithmeticFront (c : Char) (rest : List Char) : Option ArithmeticToken × Nat :=
  if c = ' ' ∨ c = '\t' ∨ c = '\n' then (none, 1)
  else if c.isDigit then
    match numberFront? (c :: rest) with
    | some (n, after) => (some (.number (min n maxNumber)), (c :: rest).length - after.length)
    | none => (some .unknown, 0)
  else if isNameStart c then
    let name := (c :: rest).takeWhile isNameChar
    (some (.name (String.ofList name)), name.length)
  else
    match signFront? (c :: rest) with
    | some (sign, _) => (some (.sign sign), sign.length)
    | none => (some .unknown, 0)

/-- The tokens of an expression, up to the first character that has no meaning. -/
def arithmeticTokens (cs : List Char) : List ArithmeticToken :=
  match cs with
  | [] => []
  | c :: rest =>
    match arithmeticFront c rest with
    | (some .unknown, _) => [.unknown]
    | (some token, length) => token :: arithmeticTokens (rest.drop (length - 1))
    | (none, length) => arithmeticTokens (rest.drop (length - 1))
termination_by cs.length
decreasing_by all_goals simp only [List.length_drop, List.length_cons]; omega

/-! ## Operators -/

/-- A number in 64 bits. -/
def wrapped (n : Int) : Int :=
  Int.bmod n (Nat.pow 2 64)

/-- One for what holds and zero for what does not. -/
def truth (holds : Bool) : Int :=
  if holds then 1 else 0

/-- How loosely a binary operator binds. -/
def looseness? (sign : String) : Option Nat :=
  if sign ∈ ["*", "/", "%"] then some 0
  else if sign ∈ ["+", "-"] then some 1
  else if sign ∈ ["<<", ">>"] then some 2
  else if sign ∈ ["<", "<=", ">", ">="] then some 3
  else if sign ∈ ["==", "!="] then some 4
  else if sign = "&" then some 5
  else if sign = "^" then some 6
  else if sign = "|" then some 7
  else none

/-- The bits of two numbers combined. -/
def bitwise (f : UInt64 → UInt64 → UInt64) (a b : Int) : Int :=
  (f (UInt64.ofInt a) (UInt64.ofInt b)).toInt64.toInt

/-- What a binary operator gives; none for a quotient that is not there. -/
def binaryValue (sign : String) (a b : Int) : Option Int :=
  let shift := (b % 64).toNat
  if sign = "*" then some (wrapped (a * b))
  else if sign = "/" then if b = 0 then none else some (a.tdiv b)
  else if sign = "%" then if b = 0 then none else some (a.tmod b)
  else if sign = "+" then some (wrapped (a + b))
  else if sign = "-" then some (wrapped (a - b))
  else if sign = "<<" then some (wrapped (a * (Nat.pow 2 shift : Int)))
  else if sign = ">>" then some (a.fdiv (Nat.pow 2 shift : Int))
  else if sign = "<" then some (truth (a < b))
  else if sign = "<=" then some (truth (a ≤ b))
  else if sign = ">" then some (truth (b < a))
  else if sign = ">=" then some (truth (b ≤ a))
  else if sign = "==" then some (truth (a = b))
  else if sign = "!=" then some (truth (a ≠ b))
  else if sign = "&" then some (bitwise (· &&& ·) a b)
  else if sign = "^" then some (bitwise (· ^^^ ·) a b)
  else some (bitwise (· ||| ·) a b)

/-- The operator of an assignment that computes. -/
def assignmentOperator? (sign : String) : Option String :=
  if sign ∈ ["*=", "/=", "%=", "+=", "-=", "<<=", ">>=", "&=", "^=", "|="] then
    some (sign.dropEnd 1).toString
  else none

/-! ## Evaluation -/

/-- An expression is not well formed. -/
def malformedExpression {α : Type} (text reason : String) : Act α :=
  fault s!"arithmetic expression: {reason}: \"{text}\""

/-- What a binary operator gives.  A quotient that does not fit ends the shell. -/
def operate (text sign : String) (a b : Int) : Act Int := do
  if (sign = "/" ∨ sign = "%") ∧ a = minNumber ∧ b = -1 then throw (.killed 8)
  match binaryValue sign a b with
  | some n => return n
  | none => malformedExpression text "division by zero"

/-- The number that a variable holds. -/
def variableNumber (name : String) : Act Int := do
  let value := ((← self).value? name).getD ""
  if value.toList.all isSpace then return 0
  else
    match wholeNumber? value with
    | some n => return n
    | none => fault s!"Illegal number: {value}"

/-- A value, and the tokens that follow. -/
abbrev Evaluated := Int × List ArithmeticToken

/-- How expressions are read inside each other: the text of the whole, whether it counts,
and the tokens. -/
abbrev Evaluator := Bool → List ArithmeticToken → Act Evaluated

/-- The value of an operand with the signs in front of it. -/
def operand (text : String) (self : Evaluator) : Nat → Evaluator
  | 0, _, _ => malformedExpression text "expecting primary"
  | fuel + 1, counts, tokens => do
    match tokens with
    | .number n :: rest => return (n, rest)
    | .name name :: rest => return (← if counts then variableNumber name else pure 0, rest)
    | .sign "(" :: rest =>
      let (n, rest) ← self counts rest
      match rest with
      | .sign ")" :: rest => return (n, rest)
      | _ => malformedExpression text "expecting ')'"
    | .sign "+" :: rest => operand text self fuel counts rest
    | .sign "-" :: rest =>
      let (n, rest) ← operand text self fuel counts rest
      return (wrapped (-n), rest)
    | .sign "!" :: rest =>
      let (n, rest) ← operand text self fuel counts rest
      return (truth (n = 0), rest)
    | .sign "~" :: rest =>
      let (n, rest) ← operand text self fuel counts rest
      return (-n - 1, rest)
    | _ => malformedExpression text "expecting primary"

/-- The binary operator in front, where it binds tighter than a limit. -/
def tighter? (limit : Nat) : List ArithmeticToken → Option (String × Nat)
  | .sign sign :: _ =>
    match looseness? sign with
    | some looseness => if looseness < limit then some (sign, looseness) else none
    | none => none
  | _ => none

/-- A value combined with what follows it by operators that bind tighter than a limit. -/
def combined (text : String) (operand : Evaluator) :
    Nat → Nat → Bool → Int → List ArithmeticToken → Act Evaluated
  | 0, _, _, a, tokens => return (a, tokens)
  | fuel + 1, limit, counts, a, tokens => do
    match tighter? limit tokens with
    | none => return (a, tokens)
    | some (sign, looseness) =>
      let (b, rest) ← operand counts tokens.tail
      let (b, rest) ← combined text operand fuel looseness counts b rest
      let n ← if counts then operate text sign a b else pure b
      combined text operand fuel limit counts n rest

/-- Operands joined by a sign, where the value of those before tells whether more count;
`stops` is the outcome after which they do not. -/
def chained (sign : String) (stops : Bool) (part : Evaluator) : Nat → Evaluator
  | 0, counts, tokens => part counts tokens
  | fuel + 1, counts, tokens => do
    let (a, rest) ← part counts tokens
    match rest with
    | .sign own :: after =>
      if own = sign then
        let holds : Bool := a ≠ 0
        let (b, rest) ← chained sign stops part fuel (counts && holds != stops) after
        let both := if stops then holds || b ≠ 0 else holds && b ≠ 0
        return (truth both, rest)
      else return (a, rest)
    | _ => return (a, rest)

/-- A choice between two expressions. -/
def chosen (text : String) (self part : Evaluator) : Nat → Evaluator
  | 0, counts, tokens => part counts tokens
  | fuel + 1, counts, tokens => do
    let (a, rest) ← part counts tokens
    match rest with
    | .sign "?" :: rest =>
      let (b, rest) ← self (counts && a ≠ 0) rest
      match rest with
      | .sign ":" :: rest =>
        let (c, rest) ← chosen text self part fuel (counts && a = 0) rest
        return (if a ≠ 0 then b else c, rest)
      | _ => malformedExpression text "expecting ':'"
    | _ => return (a, rest)

/-- Set a variable to a number. -/
def assignNumber (name : String) (n : Int) : Act Unit :=
  setVariable name (some (toString n))

/-- The value of a whole expression, with so much inside each other at most. -/
def evaluateNested (text : String) : Nat → Evaluator
  | 0, _, _ => malformedExpression text "expecting primary"
  | fuel + 1, counts, tokens => do
    let self : Evaluator := evaluateNested text fuel
    let operand : Evaluator := operand text self fuel
    let binary : Evaluator := fun counts tokens => do
      let (a, rest) ← operand counts tokens
      combined text operand fuel 8 counts a rest
    let both := chained "&&" false binary fuel
    let either := chained "||" true both fuel
    match tokens with
    | .name name :: .sign sign :: rest =>
      if sign = "=" then
        let (n, rest) ← self counts rest
        if counts then assignNumber name n
        return (n, rest)
      else
        match assignmentOperator? sign with
        | some operator =>
          let (b, rest) ← self counts rest
          if counts then
            let n ← operate text operator (← variableNumber name) b
            assignNumber name n
            return (n, rest)
          else return (b, rest)
        | none => chosen text self either fuel counts tokens
    | tokens => chosen text self either fuel counts tokens

/-- The value of an expression. -/
def evaluate (text : String) : Act Int := do
  let tokens := arithmeticTokens text.toList
  let (n, rest) ← evaluateNested text (tokens.length + 2) true tokens
  match rest with
  | [] => return n
  | _ => malformedExpression text "expecting EOF"

end NativeBuild.Shell
