import NativeBuild.Toml.Scalar

/-!
# TOML documents

Values with their nesting, the statements of a document, and the table that the
statements define.

Main definitions:

- `Toml.value?`: a value of any form.
- `Toml.Statement`: a header or a key with its value.
- `Toml.read`: the fields of the table that a text holds.
-/

namespace NativeBuild.Toml

/-! ## Values -/

/-- The items of an array after its opening bracket, up to the closing one.  Blanks,
comments and line breaks may stand around items, and a comma after the last. -/
def items? (item : Scanner Value) : Nat → Scanner (List Value)
  | 0, _ => none
  | fuel + 1, cs =>
    match skipLines (cs.length + 1) cs with
    | ']' :: rest => some ([], rest)
    | cs =>
      match item cs with
      | none => none
      | some (value, rest) =>
        match skipLines (rest.length + 1) rest with
        | ',' :: rest => (items? item fuel rest).map fun (items, rest) => (value :: items, rest)
        | ']' :: rest => some ([value], rest)
        | _ => none

/-- A key with its value, on one line. -/
def keyValue? (item : Scanner Value) (cs : List Char) :
    Option ((List String × Value) × List Char) := do
  let (key, cs) ← key? cs
  let (value, cs) ← item (skipBlanks (← after? '=' cs))
  return ((key, value), cs)

/-- The entries of an inline table, at least one, up to the closing brace. -/
def entries? (item : Scanner Value) : Nat → Scanner (List (List String × Value))
  | 0, _ => none
  | fuel + 1, cs =>
    match keyValue? item cs with
    | none => none
    | some (entry, rest) =>
      match skipBlanks rest with
      | ',' :: rest => (entries? item fuel rest).map fun (more, rest) => (entry :: more, rest)
      | '\x7d' :: rest => some ([entry], rest)
      | _ => none

/-- The table of some entries, each key given by its parts. -/
def tableOf? (entries : List (List String × Value)) : Option Value :=
  (entries.foldlM (fun draft entry => Draft.addKey entry.1 entry.2 draft) Draft.empty).map
    Draft.finish

/-- An inline table after its opening brace. -/
def inlineTable? (item : Scanner Value) (cs : List Char) : Option (Value × List Char) :=
  match skipBlanks cs with
  | '\x7d' :: rest => some (.table [], rest)
  | cs => do
    let (entries, rest) ← entries? item (cs.length + 1) cs
    return (← tableOf? entries, rest)

/-- A value whose arrays and inline tables nest at most as deep as given. -/
def value? : Nat → Scanner Value
  | 0, cs => scalar? cs
  | depth + 1, cs =>
    match cs with
    | '[' :: rest =>
      match depth with
      | 0 => none
      | _ => (items? (value? depth) (rest.length + 1) rest).map fun (items, rest) =>
          (.array items, rest)
    | '\x7b' :: rest =>
      match depth with
      | 0 => none
      | _ => inlineTable? (value? depth) rest
    | cs => scalar? cs

/-! ## Statements -/

/-- A statement of a document. -/
inductive Statement where
  /-- A key, by its parts, with its value. -/
  | assign (key : List String) (value : Value)
  /-- The header of a table. -/
  | header (key : List String)
  /-- The header of a table in an array. -/
  | arrayHeader (key : List String)
deriving Repr

/-- The statements of a document. -/
def statements? : Nat → List Char → Option (List Statement)
  | 0, _ => none
  | fuel + 1, cs =>
    match skipBlanks cs with
    | [] => some []
    | '#' :: rest => do statements? fuel (← afterLine? ('#' :: rest))
    | '[' :: '[' :: rest => do
      let (key, rest) ← key? rest
      let rest ← afterLine? (← after? ']' (← after? ']' rest))
      return .arrayHeader key :: (← statements? fuel rest)
    | '[' :: rest => do
      let (key, rest) ← key? rest
      let rest ← afterLine? (← after? ']' rest)
      return .header key :: (← statements? fuel rest)
    | cs =>
      match afterLineBreak? cs with
      | some rest => statements? fuel rest
      | none => do
        let ((key, value), rest) ← keyValue? (value? maxDepth) cs
        let rest ← afterLine? rest
        return .assign key value :: (← statements? fuel rest)

/-- The document after the statements, with the table of the last header given by
its path. -/
def build? : List String → Draft → List Statement → Option Draft
  | _, document, [] => some document
  | here, document, .assign key value :: rest => do
    build? here (← document.inside (Draft.addKey key value) false here) rest
  | _, document, .header key :: rest => do
    let last ← key.getLast?
    build? key (← document.inside (Draft.defineTable last) false key.dropLast) rest
  | _, document, .arrayHeader key :: rest => do
    let last ← key.getLast?
    build? key (← document.inside (Draft.appendTable last) false key.dropLast) rest

/-- The text without the byte order mark that may start it. -/
def dropMark : List Char → List Char
  | c :: cs => if c = '\uFEFF' then cs else c :: cs
  | [] => []

/-- The table that a text holds. -/
def read (text : String) : Option Value := do
  let cs := dropMark text.toList
  let statements ← statements? (cs.length + 1) cs
  return (← build? [] Draft.empty statements).finish

end NativeBuild.Toml
