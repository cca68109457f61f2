import ImportSupply.Command.Line
import ImportSupply.Setup

/-!
# Running commands

A command reads and changes a file tree, prints a text and ends with a status: zero, one for a
failure, which is reported, and two for a command line that is not to be understood.
-/

namespace ImportSupply.Command

/-- What a command leaves behind. -/
structure Outcome where
  tree : FileTree
  /-- What is printed. -/
  output : String
  /-- What is reported, if the command fails. -/
  report : Option String
  status : Nat
  deriving DecidableEq, Repr

namespace Outcome

/-- A command that succeeds. -/
def success (tree : FileTree) (output : String) : Outcome :=
  ⟨tree, output, none, 0⟩

/-- A command that fails. -/
def failure (tree : FileTree) (cause : Failure) : Outcome :=
  ⟨tree, "", some ("[auto-imports] " ++ cause.message), 1⟩

/-- A command line that is not to be understood. -/
def misused (tree : FileTree) : Outcome :=
  ⟨tree, "", none, 2⟩

end Outcome

/-- The text of a file that a command is given. -/
def readFile (tree : FileTree) (path : String) : Except Failure String :=
  (tree.readText path).mapError (Failure.access path)

/-- What is printed about a setup. -/
def summary (setup : Setup) : String :=
  Setup.name ++ ": " ++ Nat.repr setup.registry.size ++ " auto-imports registered\n" ++
    if setup.written.isEmpty then "outputs up to date\n"
    else String.join (setup.written.map fun path => "wrote " ++ path ++ "\n")

/-- Writes the files that the options in a file ask for. -/
def declare (tree : FileTree) (config : String) : Outcome :=
  match Options.load tree config with
  | .error cause => .failure tree cause
  | .ok options =>
      match Setup.run options tree with
      | (after, .error cause) => .failure after cause
      | (after, .ok setup) => .success after (summary setup)

/-- The options in a file, or the default ones. -/
def optionsOf (tree : FileTree) : Option String → Except Failure Options
  | some config => Options.load tree config
  | none => .ok .default

/-- Prints a script with the imports it lacks, and writes nothing. -/
def transform (tree : FileTree) (file : String) (config : Option String) : Outcome :=
  match optionsOf tree config with
  | .error cause => .failure tree cause
  | .ok options =>
      match Setup.run options.withoutOutputs tree with
      | (after, .error cause) => .failure after cause
      | (after, .ok setup) =>
          match readFile after file with
          | .error cause => .failure after cause
          | .ok code =>
              .success after (((setup.transform? file code).map Injection.code).getD code)

/-- Prints the globals of a declaration file. -/
def globals (tree : FileTree) (declarations : String) (readonly : Bool) : Outcome :=
  let setting : Globals.Setting := if readonly then .access .readonly else .flag true
  match (readFile tree declarations).bind (Setup.globalsText setting) with
  | .error cause => .failure tree cause
  | .ok text => .success tree (text ++ "\n")

/-- Runs a command line on a file tree. -/
def run (tree : FileTree) (arguments : List String) : Outcome :=
  match read false arguments with
  | none => .misused tree
  | some .version => .success tree "auto-imports 0.1.0\n"
  | some (.declare config) => declare tree config
  | some (.transform file config) => transform tree file config
  | some (.globals declarations readonly) => globals tree declarations readonly

end ImportSupply.Command
