import NativeBuild.Shell.Text

/-!
# Modes

The rights on a file of its owner, of its group and of all others, as nine bits, and the
texts that ask for others: clauses such as `u=rw,go-w`, each of them with the classes whose
rights change and what is done to them.

Main definitions:

- `classBits` and `rightBits`: the bits that letters stand for.
- `changeMode?`: the mode after a text of clauses.
- `showMode` and `showOctal`: a mode as a text.
-/

namespace NativeBuild.Shell.Mode

/-! ## Letters -/

/-- All bits of a mode. -/
def allBits : Nat := 0o777

/-- The bits of a class: the owner, the group, the others, or all of them. -/
def classBits? : Char → Option Nat
  | 'u' => some 0o700
  | 'g' => some 0o070
  | 'o' => some 0o007
  | 'a' => some allBits
  | _ => none

/-- The bits of a letter of rights, for all classes.  A capital `X` counts only where someone
may run the file at the start, and a class stands for the rights that it has there. -/
def rightBits? (start : Nat) : Char → Option Nat
  | 'r' => some 0o444
  | 'w' => some 0o222
  | 'x' => some 0o111
  | 'X' => some (if start &&& 0o111 = 0 then 0 else 0o111)
  | 's' => some 0
  | 'u' => some (start / 64 % 8 * 0o111)
  | 'g' => some (start / 8 % 8 * 0o111)
  | 'o' => some (start % 8 * 0o111)
  | _ => none

/-- What is done to rights. -/
inductive Sign where
  | add
  | remove
  | set
deriving DecidableEq, Repr

/-- The sign that a character is. -/
def Sign.ofChar? : Char → Option Sign
  | '+' => some .add
  | '-' => some .remove
  | '=' => some .set
  | _ => none

/-- A mode after something is done to the rights of some classes. -/
def applySign (sign : Sign) (who bits mode : Nat) : Nat :=
  match sign with
  | .add => mode ||| (bits &&& who)
  | .remove => mode ^^^ (mode &&& (bits &&& who))
  | .set => (mode ^^^ (mode &&& who)) ||| (bits &&& who)

/-! ## Clauses -/

/-- A place in a text of clauses. -/
inductive Place where
  /-- In front of the sign, after the names of some classes. -/
  | names (bits : Nat)
  /-- After a sign and some rights, for some classes. -/
  | rights (who : Nat) (sign : Sign) (bits : Nat)
deriving DecidableEq, Repr

/-- The mode after the rest of a text of clauses, from a place in it on.  A clause may be
missing at the end, and where it names no class it is about all. -/
def changeFrom? (start : Nat) : List Char → Place → Nat → Option Nat
  | [], .names bits, mode => if bits = 0 then some mode else none
  | [], .rights who sign bits, mode => some (applySign sign who bits mode)
  | c :: cs, .names bits, mode =>
    match classBits? c, Sign.ofChar? c with
    | some more, _ => changeFrom? start cs (.names (bits ||| more)) mode
    | none, some sign =>
      changeFrom? start cs (.rights (if bits = 0 then allBits else bits) sign 0) mode
    | none, none => none
  | c :: cs, .rights who sign bits, mode =>
    match rightBits? start c, Sign.ofChar? c with
    | some more, _ => changeFrom? start cs (.rights who sign (bits ||| more)) mode
    | none, some next =>
      changeFrom? start cs (.rights who next 0) (applySign sign who bits mode)
    | none, none =>
      if c = ',' then changeFrom? start cs (.names 0) (applySign sign who bits mode)
      else none

/-- The mode after a text of clauses. -/
def changeMode? (mode : Nat) (text : String) : Option Nat :=
  changeFrom? mode text.toList (.names 0) mode

/-! ## Texts -/

/-- The letters of the rights that three bits grant. -/
def rightLetters (bits : Nat) : String :=
  (if bits / 4 % 2 = 1 then "r" else "") ++ (if bits / 2 % 2 = 1 then "w" else "")
    ++ (if bits % 2 = 1 then "x" else "")

/-- A mode by the rights of its classes. -/
def showMode (mode : Nat) : String :=
  let rights (n : Nat) : String := rightLetters (mode / n % 8)
  s!"u={rights 64},g={rights 8},o={rights 1}"

/-- Four octal digits. -/
def showOctal (n : Nat) : String :=
  let digits := Nat.toDigits 8 n
  String.ofList (List.replicate (4 - digits.length) '0' ++ digits)

end NativeBuild.Shell.Mode
