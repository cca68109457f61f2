import ImportSupply.Globals
import ImportSupply.Preset

/-!
# Options

What a setup is told: entries, presets and directories to take names from, and which files to
write.
-/

namespace ImportSupply

/-- A directory whose scripts' exports become entries. -/
structure ScanDir where
  path : String
  /-- Whether exported types count. -/
  types : Bool
  /-- Globs of the files to scan. -/
  includes : List String
  /-- Globs of the files to leave out. -/
  excludes : List String
  deriving DecidableEq, Repr

namespace ScanDir

/-- The files that are scanned unless something else is said. -/
def defaultIncludes : List String :=
  ["**/*.\x7bts,tsx,js,jsx\x7d"]

/-- The files that are left out unless something else is said. -/
def defaultExcludes : List String :=
  ["**/*.d.ts", "**/node_modules/**"]

/-- A directory scanned in the usual way. -/
def ofPath (path : String) : ScanDir :=
  ⟨path, true, defaultIncludes, defaultExcludes⟩

end ScanDir

/-- A directory by its path, or with details. -/
inductive DirSpec where
  | bare (path : String)
  | detailed (dir : ScanDir)
  deriving DecidableEq, Repr

/-- The directory that is meant. -/
def DirSpec.scanDir : DirSpec → ScanDir
  | bare path => .ofPath path
  | detailed dir => dir

/-- Whether and where the declaration file is written. -/
inductive DeclarationOutput where
  | enabled (value : Bool)
  | file (path : String)
  deriving DecidableEq, Repr

namespace DeclarationOutput

/-- Where the declaration file is written unless something else is said. -/
def defaultPath : String :=
  "./auto-imports.d.ts"

/-- The path of the declaration file, if it is written. -/
def path? : DeclarationOutput → Option String
  | file path => some path
  | enabled true => some defaultPath
  | enabled false => none

end DeclarationOutput

/-- The globals file for a linter. -/
structure LinterOptions where
  enabled : Bool
  path : String
  setting : Globals.Setting
  deriving DecidableEq, Repr

/-- The linter's options unless something else is said. -/
def LinterOptions.default : LinterOptions :=
  ⟨false, "./.eslint-auto-import.json", .flag true⟩

/-- What a setup is told. -/
structure Options where
  imports : List Entry
  presets : List PresetSpec
  dirs : List DirSpec
  declarations : DeclarationOutput
  linter : LinterOptions
  debug : Bool
  deriving DecidableEq, Repr

namespace Options

/-- The options unless something else is said. -/
def default : Options :=
  ⟨[], [], [], .file DeclarationOutput.defaultPath, .default, false⟩

/-- The directories to scan, in order. -/
def scanDirs (options : Options) : List ScanDir :=
  options.dirs.map DirSpec.scanDir

/-- The options with no file to write. -/
def withoutOutputs (options : Options) : Options :=
  { options with
    declarations := .enabled false
    linter := { options.linter with enabled := false } }

end Options

end ImportSupply
