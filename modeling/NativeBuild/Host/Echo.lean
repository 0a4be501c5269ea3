import NativeBuild.Shell.Escape

/-!
# The program that shows its arguments

What the program `echo` writes, which knows more flags than the command of the shell.

Main definitions:

- `echoOutput`: the output for some arguments.
-/

namespace NativeBuild

/-- The argument is made of the flags `n`, `e` and `E`. -/
def isEchoFlag (argument : String) : Bool :=
  match argument.toList with
  | '-' :: c :: rest => (c :: rest).all (· ∈ ['n', 'e', 'E'])
  | _ => false

/-- What `echo` writes: its arguments in a line.  The flags `n`, `e` and `E` may stand in
front: no line end, escapes replaced, escapes kept. -/
def echoOutput (arguments : List String) : List UInt8 :=
  let flags := (arguments.takeWhile isEchoFlag).flatMap (·.toList)
  let text := (" ".intercalate (arguments.dropWhile isEchoFlag)).toList
  let escapes := (flags.filter (· ∈ ['e', 'E'])).getLast? == some 'e'
  let (bytes, ended) :=
    if escapes then Shell.unescape .extended text else (Shell.toBytes text, false)
  if flags.contains 'n' || ended then bytes else bytes ++ [10]

end NativeBuild
