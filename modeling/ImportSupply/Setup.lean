import ImportSupply.Declarations
import ImportSupply.Injection
import ImportSupply.Options.Reader
import ImportSupply.Output
import ImportSupply.Scan

/-!
# Setups

A setup gathers entries from the options' imports, presets and directories, in this order, and
writes the declaration file and the linter's globals file. What it gathered then serves to
transform scripts.
-/

namespace ImportSupply

/-- What a setup made: the registry, the declaration file's text, and the paths that were
written. -/
structure Setup where
  registry : Registry
  declarations : String
  written : List String
  deriving DecidableEq, Repr

namespace Setup

/-- The name that a setup goes by. -/
def name : String :=
  "auto-imports-native"

/-- The entries that options ask for: imports, presets, directories. -/
def gather (options : Options) (tree : FileTree) : Except Failure (List Entry) := do
  -- the directories are read first, as only they can fail, but their entries come last
  let scanned ← scanDirs tree options.scanDirs
  return options.imports ++ PresetSpec.entries options.presets ++ scanned

/-- Writes an output file, if there is one to write; the paths written. -/
def writeOutput (tree : FileTree) (path : String) (text : Except Failure String) :
    FileTree × Except Failure (List String) :=
  match text with
  | .error failure => (tree, .error failure)
  | .ok text =>
      let (after, result) := Output.writeIfChanged tree path text
      (after, result.map fun isWritten => if isWritten then [path] else [])

/-- Writes the declaration file, if options ask for one. -/
def writeDeclarations (options : Options) (declarations : String) (tree : FileTree) :
    FileTree × Except Failure (List String) :=
  match options.declarations.path? with
  | none => (tree, .ok [])
  | some path => writeOutput tree path (.ok declarations)

/-- The text of the globals file for a declaration file. -/
def globalsText (setting : Globals.Setting) (declarations : String) : Except Failure String :=
  match Globals.text? setting declarations.toList with
  | some text => .ok (String.ofList text)
  | none => .error .emptyDeclarations

/-- Writes the linter's globals file, if options ask for one. -/
def writeGlobals (options : Options) (declarations : String) (tree : FileTree) :
    FileTree × Except Failure (List String) :=
  if options.linter.enabled then
    writeOutput tree options.linter.path (globalsText options.linter.setting declarations)
  else (tree, .ok [])

/-- Gathers entries and writes the files that options ask for. The tree is given back also when this
fails. -/
def build (options : Options) (tree : FileTree) : FileTree × Except Failure Setup :=
  match gather options tree with
  | .error failure => (tree, .error failure)
  | .ok entries =>
      let registry := Registry.ofEntries entries
      let declarations := String.ofList (Declarations.text registry)
      match writeDeclarations options declarations tree with
      | (after, .error failure) => (after, .error failure)
      -- from here on the declaration file stays, even if the globals file fails
      | (after, .ok first) =>
          match writeGlobals options declarations after with
          | (final, .error failure) => (final, .error failure)
          | (final, .ok second) => (final, .ok ⟨registry, declarations, first ++ second⟩)

/-- A setup by options: its failure, if it fails, is that of a setup. -/
def run (options : Options) (tree : FileTree) : FileTree × Except Failure Setup :=
  let (after, result) := build options tree
  (after, result.mapError Failure.inSetup)

/-- A script file transformed: nothing, if it is not to be transformed or needs nothing. -/
def transform? (setup : Setup) (path code : String) : Option Injection :=
  if !Script.isTransformed path.toList then none
  else
    let injection := setup.registry.inject code
    if injection.isModified then some injection else none

end Setup

/-- Options from a text that comes from somewhere. -/
def Options.parse (text origin : String) : Except Failure Options :=
  (Options.ofText text.toList).mapError (Failure.configuration origin)

/-- Options from a file. -/
def Options.load (tree : FileTree) (path : String) : Except Failure Options := do
  let text ← (tree.readText path).mapError (Failure.access path)
  Options.parse text path

end ImportSupply
