/-!
# Hexadecimal digits

Main definitions:

- `hexValue?`: the value of a digit of either case.
- `hexNumber?`: the number that some digits spell.
-/

namespace NativeBuild.Text

/-- The value of a hexadecimal digit. -/
def hexValue? (c : Char) : Option Nat :=
  if c.isDigit then some (c.toNat - 48)
  else if 'a' ≤ c ∧ c ≤ 'f' then some (c.toNat - 87)
  else if 'A' ≤ c ∧ c ≤ 'F' then some (c.toNat - 55)
  else none

/-- The number that hexadecimal digits spell. -/
def hexNumber? (digits : List Char) : Option Nat :=
  (digits.mapM hexValue?).map fun values => values.foldl (fun n d => n * 16 + d) 0

end NativeBuild.Text
