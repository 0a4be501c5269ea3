import NativeBuild.Shell.Binary64
import NativeBuild.Shell.Escape

/-!
# Formatted output

What `printf` writes: a format whose directives stand for arguments, applied again and
again while arguments are left.

Main definitions:

- `Directive`: a directive of a format.
- `readInteger`: the number that an argument spells, with what is wrong with it.
- `formatAll`: a format applied to arguments.
-/

namespace NativeBuild.Shell

/-! ## Directives -/

/-- A width or a precision. -/
inductive Amount where
  | fixed (n : Nat)
  /-- The amount is the next argument. -/
  | argument
deriving DecidableEq, Repr

/-- A directive of a format. -/
structure Directive where
  flags : List Char
  width : Option Amount
  precision : Option Amount
  conversion : Char
deriving DecidableEq, Repr

/-- A digit, or the star that stands for an argument. -/
def isAmountChar (c : Char) : Bool :=
  c.isDigit || c == '*'

/-- The amount that the given characters spell. -/
def amountOf (cs : List Char) : Option Amount :=
  match cs with
  | [] => none
  | '*' :: _ => some .argument
  | cs => some (.fixed (((String.ofList cs).toNat?).getD 0))

/-- The amount at the front, and the rest. -/
def amountFront (cs : List Char) : Option Amount × List Char :=
  (amountOf (cs.takeWhile isAmountChar), cs.dropWhile isAmountChar)

/-- A character that flags a directive. -/
def isFlagChar (c : Char) : Bool :=
  c ∈ ['#', '-', '+', ' ', '0']

/-- The directive after a percent sign, and the rest; none where its last character is
missing. -/
def directive? (cs : List Char) : Option (Directive × List Char) :=
  let (width, rest) := amountFront (cs.dropWhile isFlagChar)
  let (precision, rest) :=
    match rest with
    | '.' :: rest =>
      let (precision, rest) := amountFront rest
      (some (precision.getD (.fixed 0)), rest)
    | rest => (none, rest)
  match rest with
  | [] => none
  | conversion :: rest => some (⟨cs.takeWhile isFlagChar, width, precision, conversion⟩, rest)

/-! ## Numbers in arguments -/

/-- The bounds that signed and unsigned numbers are kept in. -/
def bounds (signed : Bool) : Int × Int :=
  if signed then (-(Nat.pow 2 63 : Int), (Nat.pow 2 63 : Int) - 1)
  else (-((Nat.pow 2 64 : Int) - 1), (Nat.pow 2 64 : Int) - 1)

/-- What is wrong with an argument that should be a number, from what follows the number in
it. -/
def conversionWarning? (argument : String) (rest : Option (List Char)) (inRange : Bool) :
    Option String :=
  match rest with
  | none => if argument = "" then none else some s!"{argument}: expected numeric value"
  | some (_ :: _) => some s!"{argument}: not completely converted"
  | some [] => if inRange then none else some s!"{argument}: Numerical result out of range"

/-- The number of the character after a quote in front of an argument. -/
def quotedNumber? (argument : String) : Option Nat :=
  match argument.toList with
  | '"' :: rest => some ((rest.head?.map Char.toNat).getD 0)
  | '\'' :: rest => some ((rest.head?.map Char.toNat).getD 0)
  | _ => none

/-- The number that an argument spells, and what is wrong with the argument.  After a
quote it is the number of the next character. -/
def readInteger (signed : Bool) (argument : String) : Int × Option String :=
  match quotedNumber? argument with
  | some n => (n, none)
  | none =>
    match numberFront? argument.toList with
    | none => (0, conversionWarning? argument none true)
    | some (n, rest) =>
      let (low, high) := bounds signed
      let inRange : Bool := low ≤ n && n ≤ high
      let kept := if inRange then n else if signed then max low (min high n) else high
      (kept, conversionWarning? argument (some rest) inRange)

/-! ## Writing one argument -/

/-- A text at one end of a number of places. -/
def fill (left : Bool) (width : Nat) (bytes : List UInt8) : List UInt8 :=
  let blanks := List.replicate (width - bytes.length) 32
  if left then bytes ++ blanks else blanks ++ bytes

/-- The digits of a number in a base. -/
def digitText (base : Nat) (upper : Bool) (n : Nat) : List Char :=
  let digits := Nat.toDigits base n
  if upper then digits.map Char.toUpper else digits

/-- The digits of a number, at least as many as the precision says. -/
def preciseDigits (base : Nat) (upper : Bool) (precision : Option Nat) (n : Nat) : List Char :=
  let digits := if precision = some 0 ∧ n = 0 then [] else digitText base upper n
  List.replicate (precision.getD 0 - digits.length) '0' ++ digits

/-- A number as text: what stands in front of its digits, the digits, and the places that
both are filled up to. -/
def integerText (flags : List Char) (width : Nat) (precision : Option Nat) (front : String)
    (digits : List Char) : List UInt8 :=
  let zeros :=
    if flags.contains '0' ∧ flags.contains '-' = false ∧ precision = none then
      List.replicate (width - (front.length + digits.length)) '0'
    else []
  fill (flags.contains '-') width (toBytes (front.toList ++ zeros ++ digits))

/-- A signed number as text. -/
def signedText (flags : List Char) (width : Nat) (precision : Option Nat) (n : Int) :
    List UInt8 :=
  let front :=
    if n < 0 then "-" else if flags.contains '+' then "+"
    else if flags.contains ' ' then " " else ""
  integerText flags width precision front (preciseDigits 10 false precision n.natAbs)

/-- An unsigned number as text, by the letter of its base. -/
def unsignedText (letter : Char) (flags : List Char) (width : Nat) (precision : Option Nat)
    (n : Nat) : List UInt8 :=
  let marked := flags.contains '#'
  if letter = 'o' then
    let digits := preciseDigits 8 false precision n
    let digits := if marked ∧ digits.head? ≠ some '0' then '0' :: digits else digits
    integerText flags width precision "" digits
  else if letter = 'u' then
    integerText flags width precision "" (preciseDigits 10 false precision n)
  else
    let front := if marked ∧ n ≠ 0 then String.ofList ['0', letter] else ""
    integerText flags width precision front (preciseDigits 16 (letter == 'X') precision n)

/-- The real number that an argument spells, and what is wrong with the argument. -/
def readRealArgument (argument : String) : Binary64 × Option String :=
  match quotedNumber? argument with
  | some n => ((Binary64.ofQuotient false n 1).1, none)
  | none =>
    match readReal? argument.toList with
    | none => (.finite false 0 Binary64.leastExponent, conversionWarning? argument none true)
    | some (x, inRange, rest) => (x, conversionWarning? argument (some rest) inRange)

/-- A real number as text, by the letter of its form. -/
def realText (letter : Char) (flags : List Char) (width : Nat) (precision : Option Nat)
    (x : Binary64) : List UInt8 :=
  let sign : List Char :=
    if x.isNegative then ['-'] else if flags.contains '+' then ['+']
    else if flags.contains ' ' then [' '] else []
  let (front, body) := realBody letter (flags.contains '#') precision x
  let front := sign ++ front
  let padded := match x with
    | .finite .. => flags.contains '0' && !flags.contains '-'
    | _ => false
  let zeros := if padded then List.replicate (width - (front.length + body.length)) '0' else []
  fill (flags.contains '-') width (toBytes (front ++ zeros ++ body))

/-! ## Formats -/

/-- What formatting gives. -/
structure Formatted where
  bytes : List UInt8 := []
  /-- The arguments that are left. -/
  left : List String
  /-- What is wrong with arguments that should be numbers. -/
  warnings : List String := []
  /-- What is wrong with the format, where that ended the output. -/
  bad : Option String := none
  /-- The escape `\c` of an argument ended all output. -/
  ended : Bool := false

/-- Some output in front of what formatting gives. -/
def Formatted.after (bytes : List UInt8) (warnings : List String) (more : Formatted) :
    Formatted :=
  { more with bytes := bytes ++ more.bytes, warnings := warnings ++ more.warnings }

/-- The value of an amount, with the arguments that are left and what is wrong; a negative
width fills at the other end.  Of an argument the low 32 bits count. -/
def amountValue (amount : Option Amount) (arguments : List String) :
    Option Int × List String × List String :=
  match amount with
  | none => (none, arguments, [])
  | some (.fixed n) => (some n, arguments, [])
  | some .argument =>
    match arguments with
    | [] => (some 0, [], [])
    | argument :: rest =>
      let (n, warning) := readInteger true argument
      (some (n.bmod (Nat.pow 2 32)), rest, warning.toList)

/-- The letters of the forms of real numbers. -/
def realLetters : List Char :=
  ['a', 'A', 'e', 'E', 'f', 'F', 'g', 'G']

/-- The bytes of a directive for one argument, what is wrong with the argument, and
whether all output ends; none where the directive means nothing. -/
def writeArgument? (conversion : Char) (flags : List Char) (width : Nat)
    (precision : Option Nat) (argument : String) :
    Option (List UInt8 × Option String × Bool) :=
  let text (bytes : List UInt8) := fill (flags.contains '-') width (bytes.take
    (precision.getD bytes.length))
  if conversion = 's' then some (text (toBytes argument.toList), none, false)
  else if conversion = 'b' then
    let (bytes, ended) := unescape .plain argument.toList
    some (text bytes, none, ended)
  else if conversion = 'c' then
    some (fill (flags.contains '-') width [(toBytes argument.toList).headD 0], none, false)
  else if conversion ∈ ['d', 'i'] then
    let (n, warning) := readInteger true argument
    some (signedText flags width precision n, warning, false)
  else if conversion ∈ ['o', 'u', 'x', 'X'] then
    let (n, warning) := readInteger false argument
    let bits := (n % (Nat.pow 2 64 : Int)).toNat
    some (unsignedText conversion flags width precision bits, warning, false)
  else if conversion ∈ realLetters then
    let (x, warning) := readRealArgument argument
    some (realText conversion flags width precision x, warning, false)
  else none

/-- No directive writes more bytes. -/
def maxPlaces : Nat := Nat.pow 2 31 - 1

/-- One pass over a format; a missing argument is empty. -/
def formatOnce : Nat → List Char → List String → Formatted
  | 0, _, arguments => { left := arguments }
  | fuel + 1, format, arguments =>
    match format with
    | [] => { left := arguments }
    | '\\' :: rest =>
      let (first, taken) := escape .plain rest
      (formatOnce fuel (rest.drop taken) arguments).after first []
    | '%' :: '%' :: rest => (formatOnce fuel rest arguments).after [37] []
    | '%' :: rest =>
      match directive? rest with
      | none => { left := arguments, bad := some "missing format character" }
      | some (directive, after) =>
        let (width, arguments, first) := amountValue directive.width arguments
        let (precision, arguments, second) := amountValue directive.precision arguments
        let flags :=
          if (width.getD 0) < 0 then '-' :: directive.flags else directive.flags
        let precision := precision.bind fun n => if n < 0 then none else some n.toNat
        let places := (width.getD 0).natAbs
        let fit : Bool := places ≤ maxPlaces && precision.getD 0 ≤ maxPlaces
        match writeArgument? directive.conversion flags (if fit then places else 0)
            (if fit then precision else none) (arguments.headD "") with
        | none =>
          let spec := String.ofList ('%' :: rest.take (rest.length - after.length))
          { left := arguments, warnings := first ++ second,
            bad := some s!"{spec}: invalid directive" }
        | some (bytes, third, ended) =>
          let warnings := first ++ second ++ third.toList
          if !fit then { left := arguments, warnings, bad := some "xvsnprintf failed" }
          else if ended then { bytes, left := arguments.tail, warnings, ended }
          else (formatOnce fuel after arguments.tail).after bytes warnings
    | c :: rest => (formatOnce fuel rest arguments).after [charByte c] []

/-- A format applied to arguments; while some are left and a pass takes any, it is
applied again. -/
def formatAll (format : List Char) (arguments : List String) : Formatted :=
  let once := formatOnce (format.length + 1) format arguments
  if _hleft : once.left.length < arguments.length then
    if once.left = [] ∨ once.bad.isSome ∨ once.ended then once
    else (formatAll format once.left).after once.bytes once.warnings
  else once
termination_by arguments.length

end NativeBuild.Shell
