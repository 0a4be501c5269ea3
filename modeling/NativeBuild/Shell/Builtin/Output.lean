import NativeBuild.Shell.Builtin.Flags
import NativeBuild.Shell.Condition
import NativeBuild.Shell.Format

/-!
# Commands that write and test

The commands `echo`, `printf` and `test` of the shell, and those that only have a status.

Main definitions:

- `echo`, `printf` and `test`: the commands.
-/

namespace NativeBuild.Shell

/-- The fields with a blank between each two. -/
def spaced (fields : List String) : String :=
  " ".intercalate fields

/-- What `echo` writes: the fields with their escapes replaced, and a line end unless the
first field is `-n` or an escape ended the output. -/
def echoBytes (fields : List String) : List UInt8 :=
  let silent := fields.head? = some "-n"
  let text := spaced (if silent then fields.tail else fields)
  let (bytes, ended) := unescape .plain text.toList
  if silent || ended then bytes else bytes ++ [10]

/-- The command `echo`. -/
def echo (fields : List String) : Act Nat := do
  holdBytes (echoBytes fields)
  return 0

/-- The command `printf`. -/
def printf (fields : List String) : Act Nat := do
  match ← withoutFlags fields with
  | [] => fault "usage: printf format [arg ...]"
  | format :: fields =>
    let formatted := formatAll format.toList fields
    formatted.warnings.forM warn
    holdBytes formatted.bytes
    match formatted.bad with
    | some text => fault text
    | none => return if formatted.warnings = [] then 0 else 1

/-- The command `test` under one of its two names. -/
def test (name : String) (fields : List String) : Act Nat := do
  let bracket := name = "["
  let closed := match fields.getLast? with
    | some field => field.toList.head? == some ']'
    | none => false
  if bracket ∧ !closed then fault "missing ]"
  else
    let holds ← condition (if bracket then fields.dropLast else fields)
    return if holds then 0 else 1

end NativeBuild.Shell
