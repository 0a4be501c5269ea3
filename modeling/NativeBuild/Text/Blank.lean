/-!
# Blank characters and trimming

The characters with the `White_Space` property, and the trimming that goes with
them.  Ids, program names and error output are all judged blank by this one
table.

Main results:

- Theorem `trim_eq_empty_iff`: trimming leaves nothing exactly when the text is
  blank.
-/

namespace NativeBuild.Text

/-! ## The table -/

/-- A character is blank when it has the `White_Space` property. -/
def isBlankChar (c : Char) : Bool :=
  let n := c.toNat
  (0x09 ≤ n && n ≤ 0x0D) || n == 0x20 || n == 0x85 || n == 0xA0 || n == 0x1680
    || (0x2000 ≤ n && n ≤ 0x200A) || n == 0x2028 || n == 0x2029 || n == 0x202F
    || n == 0x205F || n == 0x3000

/-! ## Trimming -/

/-- The characters without their leading and trailing blanks. -/
def trimChars (cs : List Char) : List Char :=
  ((cs.dropWhile isBlankChar).reverse.dropWhile isBlankChar).reverse

/-- A text without its leading and trailing blanks. -/
def trim (s : String) : String :=
  String.ofList (trimChars s.toList)

/-- A text is blank when all its characters are; the empty text is. -/
def isBlank (s : String) : Bool :=
  s.toList.all isBlankChar

/-- Dropping blanks leaves nothing exactly when all characters are blank. -/
theorem dropWhile_blank_eq_nil_iff (cs : List Char) :
    cs.dropWhile isBlankChar = [] ↔ cs.all isBlankChar = true := by
  induction cs with
  | nil => simp
  | cons c cs ih => by_cases h : isBlankChar c = true <;> simp_all

/-- Trimming characters leaves nothing exactly when all of them are blank. -/
theorem trimChars_eq_nil_iff (cs : List Char) :
    trimChars cs = [] ↔ cs.all isBlankChar = true := by
  rw [trimChars, List.reverse_eq_nil_iff, dropWhile_blank_eq_nil_iff, List.all_reverse]
  induction cs with
  | nil => simp
  | cons c cs ih => by_cases h : isBlankChar c = true <;> simp_all

/-- Trimming leaves nothing exactly when the text is blank. -/
theorem trim_eq_empty_iff (s : String) : trim s = "" ↔ isBlank s = true := by
  rw [trim, isBlank, ← trimChars_eq_nil_iff, ← String.toList_inj]
  simp

end NativeBuild.Text
