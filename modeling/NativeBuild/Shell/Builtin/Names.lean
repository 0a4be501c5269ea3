import NativeBuild.Shell.Builtin.Flags
import NativeBuild.Shell.Search

/-!
# Commands about names

The commands `alias`, `unalias`, `hash`, `type` and `command`.

Main definitions:

- `aliasCommand` and `unalias`: texts in place of names.
- `hashCommand`, `typeCommand` and `commandAbout`: what names stand for.
-/

namespace NativeBuild.Shell

/-! ## Aliases -/

/-- The aliases with one of them replaced or added. -/
def withAlias (name text : String) : List (String × String) → List (String × String)
  | [] => [(name, text)]
  | (other, old) :: rest =>
    if other = name then (name, text) :: rest else (other, old) :: withAlias name text rest

/-- A text of the form `name=text`; the name has a character at least. -/
def splitAlias? (field : String) : Option (String × String) :=
  match field.toList with
  | [] => none
  | c :: cs =>
    match cs.dropWhile (· != '=') with
    | [] => none
    | _ :: text => some (String.ofList (c :: cs.takeWhile (· != '=')), String.ofList text)

/-- Carry out a command on each of some fields; it fails if one of them does. -/
def onEach (fields : List String) (command : String → Act Bool) : Act Nat := do
  let outcomes ← fields.mapM command
  return if outcomes.all id then 0 else 1

/-- The command `alias`. -/
def aliasCommand (fields : List String) : Act Nat := do
  if fields = [] then
    (inTableOrder 39 (← self).aliases).forM fun (name, text) => sayAlias name text
    return 0
  else
    onEach fields fun field => do
      match splitAlias? field with
      | some (name, text) =>
        update fun p => { p with aliases := withAlias name text p.aliases }
        return true
      | none =>
        match (← self).aliases.lookup field with
        | some text =>
          sayAlias field text
          return true
        | none =>
          sayError s!"alias: {field} not found\n"
          return false

/-- The command `unalias`. -/
def unalias (fields : List String) : Act Nat := do
  if startsWithFlag 'a' fields then
    update fun p => { p with aliases := [] }
    return 0
  else
    onEach (← withoutFlags fields) fun field => do
      if ((← self).aliases.lookup field).isSome then
        update fun p => { p with aliases := p.aliases.filter fun entry => entry.1 != field }
        return true
      else
        sayError s!"unalias: {field} not found\n"
        return false

/-! ## What names stand for -/

/-- The command `hash`. -/
def hashCommand (fields : List String) : Act Nat := do
  let (flags, fields) ← readFlags { letters := ['r'] } fields
  if flags ≠ [] then
    update fun p => { p with hashed := [] }
    return 0
  else if fields = [] then
    let p ← self
    (inTableOrder 31 p.hashed).forM fun (name, place) =>
      say (placePath (searchPath p) name place ++ "\n")
    return 0
  else
    onEach fields fun name => do
      update fun p => { p with hashed := p.hashed.filter fun entry => entry.1 != name }
      match ← findCommand true (searchPath (← self)) name with
      | .nothing fault =>
        let reason := faultReason "not found" fault
        warn s!"{name}: {reason}"
        return false
      | _ => return true

/-- The command `type`. -/
def typeCommand (fields : List String) : Act Nat := do
  let statuses ← fields.mapM (describe true none)
  return statuses.foldl (· ||| ·) 0

/-- The command `command` where it is asked about a name. -/
def commandAbout (fields : List String) : Act Nat := do
  let (flags, fields) ← readFlags { letters := ['p', 'v', 'V'] } fields
  let path := if flags.any fun flag => flag.letter == 'p' then some defaultSearchPath else none
  let verbose := flags.any fun flag => flag.letter == 'V'
  match fields with
  | name :: _ =>
    if flags.any fun flag => flag.letter != 'p' then describe verbose path name else return 0
  | [] => return 0

end NativeBuild.Shell
