/-!
# Bytes as UTF-8 text

Reading bytes as text, strictly and leniently.  The lenient reading replaces each
longest broken piece of a character by one U+FFFD, so that any bytes can be shown.

Main definitions:

- `utf8`: the bytes of a text.
- `decode?`: the text of the bytes, when they are well formed.
- `decodeLossy`: a text for any bytes.
-/

namespace NativeBuild.Text

/-- The bytes of a text. -/
def utf8 (s : String) : List UInt8 :=
  s.toByteArray.data.toList

@[simp] theorem utf8_append (s t : String) : utf8 (s ++ t) = utf8 s ++ utf8 t := by
  simp [utf8]

/-! ## One character -/

/-- A byte continues a character when its two high bits are `10`. -/
def isContinuation (b : UInt8) : Bool :=
  0x80 ≤ b && b ≤ 0xBF

/-- The values that a second byte may take after a given first one: a narrower
range shuts out overlong forms, surrogates and numbers above U+10FFFF. -/
def isSecond (first second : UInt8) : Bool :=
  if first = 0xE0 then 0xA0 ≤ second && second ≤ 0xBF
  else if first = 0xED then 0x80 ≤ second && second ≤ 0x9F
  else if first = 0xF0 then 0x90 ≤ second && second ≤ 0xBF
  else if first = 0xF4 then 0x80 ≤ second && second ≤ 0x8F
  else isContinuation second

/-- The low six bits of a continuation byte. -/
def low6 (b : UInt8) : Nat :=
  b.toNat % 64

/-- Read one character: the character, if the bytes start with a whole one, and
the number of bytes after the first that it, or its longest broken piece, takes. -/
def scanChar (first : UInt8) (rest : List UInt8) : Option Char × Nat :=
  if first < 0x80 then (some (Char.ofNat first.toNat), 0)
  else if 0xC2 ≤ first ∧ first ≤ 0xDF then
    match rest with
    | b :: _ =>
      if isContinuation b then (some (Char.ofNat ((first.toNat % 32) * 64 + low6 b)), 1)
      else (none, 0)
    | [] => (none, 0)
  else if 0xE0 ≤ first ∧ first ≤ 0xEF then
    match rest with
    | b :: rest =>
      if isSecond first b then
        match rest with
        | c :: _ =>
          if isContinuation c then
            (some (Char.ofNat ((first.toNat % 16) * 4096 + low6 b * 64 + low6 c)), 2)
          else (none, 1)
        | [] => (none, 1)
      else (none, 0)
    | [] => (none, 0)
  else if 0xF0 ≤ first ∧ first ≤ 0xF4 then
    match rest with
    | b :: rest =>
      if isSecond first b then
        match rest with
        | c :: rest =>
          if isContinuation c then
            match rest with
            | d :: _ =>
              if isContinuation d then
                (some (Char.ofNat
                  ((first.toNat % 8) * 262144 + low6 b * 4096 + low6 c * 64 + low6 d)), 3)
              else (none, 2)
            | [] => (none, 2)
          else (none, 1)
        | [] => (none, 1)
      else (none, 0)
    | [] => (none, 0)
  else (none, 0)

/-! ## Whole texts -/

/-- The characters of the bytes, with `none` for each broken piece. -/
def scanChars (bytes : List UInt8) : List (Option Char) :=
  match bytes with
  | [] => []
  | first :: rest =>
    let (c, taken) := scanChar first rest
    c :: scanChars (rest.drop taken)
termination_by bytes.length
decreasing_by simp only [List.length_drop, List.length_cons]; omega

/-- The text of the bytes, when all of them belong to whole characters. -/
def decode? (bytes : List UInt8) : Option String :=
  ((scanChars bytes).mapM id).map String.ofList

/-- A text for any bytes: each broken piece is shown as U+FFFD. -/
def decodeLossy (bytes : List UInt8) : String :=
  String.ofList ((scanChars bytes).map fun c => c.getD '\uFFFD')

end NativeBuild.Text
