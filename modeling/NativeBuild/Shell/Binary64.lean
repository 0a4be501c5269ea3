import NativeBuild.Shell.Text

/-!
# Numbers with a binary point

Numbers of 64 bits with a binary point: the one that is nearest to a decimal text, and its
exact decimal texts with a given number of places.

Main definitions:

- `Binary64`: a number.
- `roundedQuotient`: a quotient rounded to the nearest whole number.
- `Binary64.ofQuotient`: the number nearest to a quotient.
- `readReal?`: the number at the front of a text.
- `realBody`: a number as text.
-/

namespace NativeBuild.Shell

/-- A number of 64 bits with a binary point. -/
inductive Binary64 where
  /-- A mantissa times a power of two. -/
  | finite (negative : Bool) (mantissa : Nat) (exponent : Int)
  | infinite (negative : Bool)
  | notNumber (negative : Bool)
deriving DecidableEq, Repr

/-! ## Rounding -/

/-- A quotient rounded to the nearest whole number, a half to the even one. -/
def roundedQuotient (n d : Nat) : Nat :=
  let q := n / d
  let r := n % d
  if 2 * r < d then q else if d < 2 * r then q + 1 else if q % 2 = 0 then q else q + 1

/-- A quotient with a power of two in front. -/
def scaledByTwo (n d : Nat) (power : Int) : Nat × Nat :=
  if 0 ≤ power then (n * Nat.pow 2 power.toNat, d) else (n, d * Nat.pow 2 (-power).toNat)

/-- A quotient with a power of ten in front. -/
def scaledByTen (n d : Nat) (power : Int) : Nat × Nat :=
  if 0 ≤ power then (n * Nat.pow 10 power.toNat, d) else (n, d * Nat.pow 10 (-power).toNat)

namespace Binary64

/-- The least exponent. -/
def leastExponent : Int := -1074

/-- The exponent with which a quotient has a mantissa of 53 bits, or the least one. -/
def exponentFor (n d : Nat) : Int :=
  let low := max (Int.ofNat n.log2 - Int.ofNat d.log2 - 53) leastExponent
  let (a, b) := scaledByTwo n d (-low)
  if a / b < Nat.pow 2 53 then low
  else
    let (a, b) := scaledByTwo n d (-(low + 1))
    if a / b < Nat.pow 2 53 then low + 1 else low + 2

/-- The number nearest to a quotient, and whether the quotient is in the range of such
numbers. -/
def ofQuotient (negative : Bool) (n d : Nat) : Binary64 × Bool :=
  if n = 0 then (.finite negative 0 leastExponent, true)
  else
    let exponent := exponentFor n d
    let (a, b) := scaledByTwo n d (-exponent)
    let mantissa := roundedQuotient a b
    let (mantissa, exponent) :=
      if mantissa = Nat.pow 2 53 then (Nat.pow 2 52, exponent + 1) else (mantissa, exponent)
    if 971 < exponent then (.infinite negative, false)
    else (.finite negative mantissa exponent, Nat.pow 2 52 ≤ mantissa ∨ a % b = 0)

/-- The sign is that of numbers below zero. -/
def isNegative : Binary64 → Bool
  | finite negative _ _ => negative
  | infinite negative => negative
  | notNumber negative => negative

end Binary64

/-! ## Reading -/

/-- The exponent behind a letter, and what follows it; without digits there is none. -/
def exponentFront (letters : List Char) (cs : List Char) : Int × List Char :=
  match cs with
  | [] => (0, [])
  | c :: rest =>
    if c ∉ letters then (0, cs)
    else
      let (negative, body) :=
        match rest with
        | '-' :: body => (true, body)
        | '+' :: body => (false, body)
        | body => (false, body)
      let digits := body.takeWhile Char.isDigit
      if digits = [] then (0, cs)
      else (signed negative (numberIn 10 digits), body.dropWhile Char.isDigit)

/-- The digits in front of a point and behind it, and what follows them; none where there is
no digit. -/
def pointedDigits? (isDigit : Char → Bool) (cs : List Char) :
    Option (List Char × List Char × List Char) :=
  let whole := cs.takeWhile isDigit
  let (part, rest) :=
    match cs.dropWhile isDigit with
    | '.' :: rest => (rest.takeWhile isDigit, rest.dropWhile isDigit)
    | rest => ([], rest)
  if whole = [] ∧ part = [] then none else some (whole, part, rest)

/-- The number of decimal digits with an exponent; what is far out of range is not computed. -/
def ofDecimal (negative : Bool) (digits : List Char) (exponent : Int) : Binary64 × Bool :=
  let n := numberIn 10 digits
  if n = 0 then Binary64.ofQuotient negative 0 1
  else
    let size := exponent + (Nat.toDigits 10 n).length
    if 400 < size then (.infinite negative, false)
    else if size < -400 then (.finite negative 0 Binary64.leastExponent, false)
    else
      let (a, b) := scaledByTen n 1 exponent
      Binary64.ofQuotient negative a b

/-- The number of hexadecimal digits with an exponent of two. -/
def ofHexadecimal (negative : Bool) (digits : List Char) (exponent : Int) : Binary64 × Bool :=
  let n := numberIn 16 digits
  if n = 0 then Binary64.ofQuotient negative 0 1
  else
    let size := exponent + (n.log2 : Int)
    if 1100 < size then (.infinite negative, false)
    else if size < -1200 then (.finite negative 0 Binary64.leastExponent, false)
    else
      let (a, b) := scaledByTwo n 1 exponent
      Binary64.ofQuotient negative a b

/-- What follows a word in front, in either case. -/
def afterWord? (word : String) (cs : List Char) : Option (List Char) :=
  let front := cs.take word.length
  if front.map Char.toLower = word.toList then some (cs.drop word.length) else none

/-- What follows the name of what is no number; a word in parentheses belongs to it. -/
def afterPayload (cs : List Char) : List Char :=
  match cs with
  | '(' :: rest =>
    match rest.dropWhile isNameChar with
    | ')' :: after => after
    | _ => cs
  | _ => cs

/-- A number without its sign, whether it is in range, and what follows it. -/
def readMagnitude? (negative : Bool) (cs : List Char) :
    Option (Binary64 × Bool × List Char) :=
  let decimal : Option (Binary64 × Bool × List Char) :=
    (pointedDigits? Char.isDigit cs).map fun (whole, part, rest) =>
      let (exponent, rest) := exponentFront ['e', 'E'] rest
      let (x, inRange) := ofDecimal negative (whole ++ part) (exponent - part.length)
      (x, inRange, rest)
  match afterWord? "infinity" cs, afterWord? "inf" cs, afterWord? "nan" cs with
  | some rest, _, _ => some (.infinite negative, true, rest)
  | _, some rest, _ => some (.infinite negative, true, rest)
  | _, _, some rest => some (.notNumber negative, true, afterPayload rest)
  | none, none, none =>
    match afterWord? "0x" cs with
    | some body =>
      match pointedDigits? (fun c => (Text.hexValue? c).isSome) body with
      | some (whole, part, rest) =>
        let (exponent, rest) := exponentFront ['p', 'P'] rest
        let (x, inRange) := ofHexadecimal negative (whole ++ part)
          (exponent - 4 * (part.length : Int))
        some (x, inRange, rest)
      | none => decimal
    | none => decimal

/-- The number at the front of a text, whether it is in range, and what follows it. -/
def readReal? (cs : List Char) : Option (Binary64 × Bool × List Char) :=
  match cs.dropWhile isSpace with
  | '-' :: body => readMagnitude? true body
  | '+' :: body => readMagnitude? false body
  | body => readMagnitude? false body

/-! ## Writing -/

/-- Digits with a point in front of the last ones. -/
def withPoint (places : Nat) (marked : Bool) (digits : List Char) : List Char :=
  let digits := List.replicate (places + 1 - digits.length) '0' ++ digits
  let whole := digits.take (digits.length - places)
  let part := digits.drop (digits.length - places)
  if places = 0 ∧ !marked then whole else whole ++ '.' :: part

/-- A quotient with so many decimal places. -/
def fixedText (n d places : Nat) (marked : Bool) : List Char :=
  withPoint places marked (Nat.toDigits 10 (roundedQuotient (n * Nat.pow 10 places) d))

/-- The greatest power of ten that is not above a quotient. -/
def decimalExponent (n d : Nat) : Int :=
  let guess := (Int.ofNat n.log2 - Int.ofNat d.log2) * 30103 / 100000
  let reaches (power : Int) : Bool :=
    let (a, b) := scaledByTen n d (-power)
    b ≤ a
  (([guess + 2, guess + 1, guess, guess - 1, guess - 2].find? reaches).getD (guess - 3))

/-- The first digits of a quotient as a number, and the exponent of the first one. -/
def leadingDigits (n d count : Nat) : Nat × Int :=
  if n = 0 then (0, 0)
  else
    let exponent := decimalExponent n d
    let (a, b) := scaledByTen n d (Int.ofNat count - 1 - exponent)
    let digits := roundedQuotient a b
    if digits = Nat.pow 10 count then (Nat.pow 10 (count - 1), exponent + 1) else (digits, exponent)

/-- An exponent with a letter and its sign, of at least so many digits. -/
def exponentText (letter : Char) (least : Nat) (exponent : Int) : List Char :=
  let digits := Nat.toDigits 10 exponent.natAbs
  letter :: (if exponent < 0 then '-' else '+')
    :: (List.replicate (least - digits.length) '0' ++ digits)

/-- A quotient with one digit in front of the point and so many behind it. -/
def exponentialText (n d places : Nat) (marked : Bool) : List Char :=
  let (digits, exponent) := leadingDigits n d (places + 1)
  let digits := if n = 0 then List.replicate (places + 1) '0' else Nat.toDigits 10 digits
  withPoint places marked digits ++ exponentText 'e' 2 exponent

/-- Decimal places without the zeros at their end. -/
def withoutZeros (cs : List Char) : List Char :=
  let mantissa := cs.takeWhile (· != 'e')
  let exponent := cs.dropWhile (· != 'e')
  if mantissa.contains '.' then
    let kept := mantissa.reverse.dropWhile (· == '0')
    (if kept.head? = some '.' then kept.tail else kept).reverse ++ exponent
  else cs

/-- A quotient with so many digits, in the shorter of two forms. -/
def generalText (n d precision : Nat) (marked : Bool) : List Char :=
  let count := max precision 1
  let (_, exponent) := leadingDigits n d count
  let text :=
    if -4 ≤ exponent ∧ exponent < count then
      fixedText n d (Int.ofNat count - 1 - exponent).toNat marked
    else exponentialText n d (count - 1) marked
  if marked then text else withoutZeros text

/-- A mantissa in hexadecimal digits with an exponent of two. -/
def hexadecimalText (mantissa : Nat) (exponent : Int) (precision : Option Nat)
    (marked : Bool) : List Char :=
  let power := if mantissa = 0 then 0 else exponent + 52
  let places := precision.getD 13
  let digits :=
    if places < 13 then roundedQuotient mantissa (Nat.pow 16 (13 - places))
    else mantissa * Nat.pow 16 (places - 13)
  let text := withPoint places marked (Nat.toDigits 16 digits)
  let kept :=
    if precision.isNone && text.contains '.' then
      let kept := text.reverse.dropWhile (· == '0')
      (if kept.head? = some '.' ∧ !marked then kept.tail else kept).reverse
    else text
  kept ++ exponentText 'p' 1 power

/-- A number as text without its sign, by the letter of its form: what stands in front of
its digits, and the rest. -/
def realBody (letter : Char) (marked : Bool) (precision : Option Nat) (x : Binary64) :
    List Char × List Char :=
  let form := letter.toLower
  let (front, body) : List Char × List Char :=
    match x with
    | .infinite _ => ([], "inf".toList)
    | .notNumber _ => ([], "nan".toList)
    | .finite _ mantissa exponent =>
      if form = 'a' then (['0', 'x'], hexadecimalText mantissa exponent precision marked)
      else
        let (n, d) := scaledByTwo mantissa 1 exponent
        let places := precision.getD 6
        if form = 'f' then ([], fixedText n d places marked)
        else if form = 'e' then ([], exponentialText n d places marked)
        else ([], generalText n d places marked)
  if letter.isUpper then (front.map Char.toUpper, body.map Char.toUpper) else (front, body)

end NativeBuild.Shell
