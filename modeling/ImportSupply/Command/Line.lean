/-!
# Command lines

A command line names one of three commands, with its arguments and options in any order. Anything
else is a usage error.
-/

namespace ImportSupply.Command

/-- What is asked for. -/
inductive Request where
  /-- The version. -/
  | version
  /-- To write the declaration file and the globals file of some options. -/
  | declare (config : String)
  /-- To show a script with the imports it lacks. -/
  | transform (file : String) (config : Option String)
  /-- To show the globals of a declaration file. -/
  | globals (declarations : String) (readonly : Bool)
  deriving DecidableEq, Repr

/-- The three commands. -/
inductive Verb where
  | declare
  | transform
  | globals
  deriving DecidableEq, Repr

namespace Verb

/-- The command a word stands for. -/
def ofWord? : String → Option Verb
  | "dts" => some declare
  | "transform" => some transform
  | "globals" => some globals
  | _ => none

/-- Whether a command takes options from a file. -/
def takesConfig : Verb → Bool
  | globals => false
  | _ => true

/-- Whether a command takes a path. -/
def takesPath : Verb → Bool
  | declare => false
  | _ => true

/-- Whether a command takes the linter's flag. -/
def takesFlag : Verb → Bool
  | globals => true
  | _ => false

end Verb

/-- What has been read of a command's arguments. -/
structure Seen where
  path : Option String
  config : Option String
  isVerbose : Bool
  flag : Bool
  deriving DecidableEq, Repr

namespace Seen

/-- Nothing read yet. -/
def nothing : Seen :=
  ⟨none, none, false, false⟩

/-- Takes up the path of a command, which stands once and is not empty. -/
def addPath (seen : Seen) (verb : Verb) (path : String) : Option Seen :=
  if verb.takesPath && seen.path.isNone && !path.isEmpty then
    some { seen with path := some path }
  else none

/-- Takes up the path of the options, which stands once and is not empty. -/
def addConfig (seen : Seen) (verb : Verb) (path : String) : Option Seen :=
  if verb.takesConfig && seen.config.isNone && !path.isEmpty then
    some { seen with config := some path }
  else none

/-- Takes up the word for verbose output, which stands once. -/
def addVerbose (seen : Seen) : Option Seen :=
  if seen.isVerbose then none else some { seen with isVerbose := true }

/-- Takes up the linter's flag, which stands once. -/
def addFlag (seen : Seen) (verb : Verb) : Option Seen :=
  if verb.takesFlag && !seen.flag then some { seen with flag := true } else none

/-- What a command with these arguments asks for. -/
def request? (seen : Seen) : Verb → Option Request
  | .declare => some (.declare (seen.config.getD "auto-imports.json"))
  | .transform => seen.path.map fun path => .transform path seen.config
  | .globals => seen.path.map fun path => .globals path seen.flag

end Seen

/-- Whether an argument is an option: a dash and more. -/
def isOption (argument : String) : Bool :=
  argument.startsWith "-" && argument != "-"

/-- The value behind the equals sign of an option. -/
def valueOf? (option argument : String) : Option String :=
  ((option ++ "=").toList.isPrefixOf? argument.toList).map String.ofList

/-- Reads the arguments of a command. Behind two dashes every argument is a path. -/
def readArguments (verb : Verb) : (onlyPaths : Bool) → Seen → List String → Option Request
  | _, seen, [] => seen.request? verb
  | true, seen, argument :: rest => do
      let next ← seen.addPath verb argument
      readArguments verb true next rest
  | false, seen, "--" :: rest => readArguments verb true seen rest
  | false, seen, "-v" :: rest => do
      let next ← seen.addVerbose
      readArguments verb false next rest
  | false, seen, "--verbose" :: rest => do
      let next ← seen.addVerbose
      readArguments verb false next rest
  | false, seen, "--pickier" :: rest => do
      let next ← seen.addFlag verb
      readArguments verb false next rest
  | false, seen, "--config" :: path :: rest =>
      if isOption path then none
      else do
        let next ← seen.addConfig verb path
        readArguments verb false next rest
  | false, seen, argument :: rest =>
      match valueOf? "--config" argument with
      | some path => do
          let next ← seen.addConfig verb path
          readArguments verb false next rest
      | none =>
          if isOption argument then none
          else do
            let next ← seen.addPath verb argument
            readArguments verb false next rest

/-- What a command line asks for; nothing, if it is not to be understood. -/
def read (isVerbose : Bool) : List String → Option Request
  | [] => none
  | argument :: rest =>
      if argument.startsWith "-V" || argument == "--version" then some .version
      else if argument == "-v" || argument == "--verbose" then
        if isVerbose then none else read true rest
      else if argument.startsWith "-vV" then if isVerbose then none else some .version
      else (Verb.ofWord? argument).bind fun verb => readArguments verb false .nothing rest

end ImportSupply.Command
