import NativeBuild.Config.Settings

/-!
# Command line arguments

The arguments of the command line program: options of every command, the name of a
command, options and ids of that command.  An option that all commands share may stand
before or after the command's name.

Main definitions:

- `Call`: what a call asks for.
- `Halt`: why a call does not go on to a command.
- `parse`: the reading of the arguments.
-/

namespace NativeBuild.CommandLine

/-! ## Calls -/

/-- The projects that a command is about. -/
inductive Selection where
  | all
  | ids (ids : List String)
deriving DecidableEq, Repr

/-- A command with its own arguments. -/
inductive Command where
  | list (json : Bool)
  | info (id : String) (json : Bool)
  | build (selection : Selection)
  | clean (selection : Selection)
  | rebuild (selection : Selection)
deriving DecidableEq, Repr

/-- What a call asks for. -/
structure Call where
  /-- The directory to start from, when one is given. -/
  root : Option Path
  command : Command
deriving DecidableEq, Repr

/-- Why a call does not go on to a command. -/
inductive Halt where
  /-- The arguments make no sense. -/
  | usage
  /-- The version is asked for, under the name of the command. -/
  | version (name : String)
  /-- Help is asked for. -/
  | help
deriving DecidableEq, Repr

/-! ## Levels -/

/-- The commands by what they take. -/
inductive CommandName where
  | list
  | info
  | build
  | clean
  | rebuild
deriving DecidableEq, Repr

namespace CommandName

/-- The names and short names of the commands. -/
def table : List (String × CommandName) :=
  [("list", .list), ("ls", .list), ("info", .info), ("build", .build), ("b", .build),
    ("clean", .clean), ("rebuild", .rebuild)]

/-- The command with a name. -/
def ofName? (name : String) : Option CommandName :=
  (table.find? fun entry => entry.1 == name).map (·.2)

/-- The name of a command in reports. -/
def name : CommandName → String
  | .list => "list"
  | .info => "info"
  | .build => "build"
  | .clean => "clean"
  | .rebuild => "rebuild"

/-- The command takes the flag `json`. -/
def takesJson : CommandName → Bool
  | .list => true
  | .info => true
  | _ => false

/-- The command takes the flag `all`. -/
def takesAll (command : CommandName) : Bool :=
  !command.takesJson

/-- How many ids the command takes at most, if there is a limit. -/
def idLimit? : CommandName → Option Nat
  | .list => some 0
  | .info => some 1
  | _ => none

end CommandName

/-- The arguments stand before the name of a command, or after it. -/
abbrev Level := Option CommandName

/-- The name of the program. -/
def programName : String :=
  "kiln"

/-- The name that a level's version is given under. -/
def versionName : Level → String
  | none => programName
  | some command => programName ++ "-" ++ command.name

/-! ## Options -/

/-- An option without a value. -/
inductive Flag where
  | verbose
  | version
  | help
  | json
  | all
deriving DecidableEq, Repr

/-- The flag with a long name at a level. -/
def longFlag? (level : Level) (name : List Char) : Option Flag :=
  if name = "verbose".toList then some .verbose
  else if name = "version".toList then some .version
  else if name = "help".toList then some .help
  else if name = "json".toList ∧ (level.map (·.takesJson)) = some true then some .json
  else if name = "all".toList ∧ (level.map (·.takesAll)) = some true then some .all
  else none

/-- The flag with a letter. -/
def shortFlag? (c : Char) : Option Flag :=
  if c = 'v' then some .verbose
  else if c = 'V' then some .version
  else if c = 'h' then some .help
  else none

/-- What was given at one level. -/
structure Given where
  root : Option Path := none
  flags : List Flag := []
  ids : List String := []
deriving DecidableEq, Repr

namespace Given

/-- The flag was given. -/
def has (given : Given) (flag : Flag) : Bool :=
  given.flags.contains flag

/-- Take a flag: none may be given twice at one level. -/
def takeFlag (level : Level) (given : Given) : Flag → Except Halt Given
  | .version => .error (.version (versionName level))
  | .help => .error .help
  | flag =>
    if given.has flag then .error .usage
    else .ok { given with flags := flag :: given.flags }

/-- Take a start directory: it is not empty and not given twice at one level. -/
def takeRoot (given : Given) (value : String) : Except Halt Given :=
  if value = "" ∨ given.root.isSome then .error .usage
  else .ok { given with root := some (Path.ofString value) }

/-- Take an id, where the level still takes one. -/
def takeId (level : Level) (given : Given) (id : String) : Except Halt Given :=
  match level with
  | none => .error .usage
  | some command =>
    if (command.idLimit?.map fun limit => decide (given.ids.length < limit)).getD true then
      .ok { given with ids := given.ids ++ [id] }
    else .error .usage

end Given

/-! ## Reading -/

/-- An argument that looks like an option: a dash and more. -/
def isOption (argument : String) : Bool :=
  match argument.toList with
  | '-' :: _ :: _ => true
  | _ => false

/-- Take the letters of one argument as flags. -/
def takeLetters (level : Level) (given : Given) (letters : List Char) : Except Halt Given :=
  letters.foldlM (fun given c =>
    match shortFlag? c with
    | some flag => given.takeFlag level flag
    | none => .error .usage) given

/-- Read the arguments of a level.  Before the name of a command the first argument that
is no option ends the level. -/
def readLevel (level : Level) (given : Given) : List String → Except Halt (Given × List String)
  | [] => .ok (given, [])
  | argument :: rest =>
    match argument.toList with
    | ['-', '-'] => do
      let given ← rest.foldlM (Given.takeId level) given
      return (given, [])
    | '-' :: '-' :: option =>
      let name := option.takeWhile (· != '=')
      let attached := option.drop name.length
      if name = "root".toList then
        if attached = [] then
          match rest with
          | value :: rest =>
            if isOption value then .error .usage
            else
              match given.takeRoot value with
              | .ok given => readLevel level given rest
              | .error halt => .error halt
          | [] => .error .usage
        else
          match given.takeRoot (String.ofList attached.tail) with
          | .ok given => readLevel level given rest
          | .error halt => .error halt
      else
        match longFlag? level name with
        | some flag =>
          if attached = [] then
            match given.takeFlag level flag with
            | .ok given => readLevel level given rest
            | .error halt => .error halt
          else .error .usage
        | none => .error .usage
    | '-' :: c :: letters =>
      match takeLetters level given (c :: letters) with
      | .ok given => readLevel level given rest
      | .error halt => .error halt
    | _ =>
      if level = none then .ok (given, argument :: rest)
      else
        match given.takeId level argument with
        | .ok given => readLevel level given rest
        | .error halt => .error halt

/-- The projects that ids and the flag `all` select; they exclude each other. -/
def select (given : Given) : Except Halt Selection :=
  if given.has .all then if given.ids = [] then .ok .all else .error .usage
  else if given.ids = [] then .ok .all
  else .ok (.ids given.ids)

/-- The command that a level's arguments give. -/
def command (name : CommandName) (given : Given) : Except Halt Command :=
  match name with
  | .list => .ok (.list (given.has .json))
  | .info =>
    match given.ids with
    | [id] => .ok (.info id (given.has .json))
    | _ => .error .usage
  | .build => (select given).map .build
  | .clean => (select given).map .clean
  | .rebuild => (select given).map .rebuild

/-- The environment variable with the start directory. -/
def rootVariable : String :=
  "KILN_ROOT"

/-- The start directory that the environment gives to a level where none was given; it
is not empty. -/
def environmentRoot (env : Environment) (given : Given) : Except Halt (Option Path) :=
  match given.root, env.get? rootVariable with
  | none, some [] => .error .usage
  | none, some bytes => .ok (some ⟨bytes⟩)
  | _, _ => .ok none

/-- A request for help on a command, or on all of them. -/
def readHelp : List String → Halt
  | [] => .help
  | [name] => if name = "help" ∨ (CommandName.ofName? name).isSome then .help else .usage
  | _ => .usage

/-- Read the arguments of a call.  A start directory after the command's name counts
before one in front of it, and either before the environment's. -/
def parse (env : Environment) (arguments : List String) : Except Halt Call := do
  let (shared, rest) ← readLevel none {} arguments
  match rest with
  | [] => .error .usage
  | name :: rest =>
    match CommandName.ofName? name with
    | none => if name = "help" then .error (readHelp rest) else .error .usage
    | some name =>
      let (own, _) ← readLevel (some name) {} rest
      let ownRoot ← environmentRoot env own
      let command ← command name own
      let sharedRoot ← environmentRoot env shared
      return {
        root := own.root <|> shared.root <|> ownRoot <|> sharedRoot
        command }

end NativeBuild.CommandLine
