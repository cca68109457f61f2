import ImportSupply.Injection
import ImportSupply.Json.Reader
import ImportSupply.Json.Record
import ImportSupply.Options.Basic

/-!
# Reading options

The JSON forms of entries, presets, directories and outputs. A form that has several shapes is read
completely first, and then the shapes are tried in order; if none fits, that is the complaint.
-/

namespace ImportSupply.Options

open Json

/-- An entry in JSON. -/
def entryRecord : Record Entry where
  title := "struct ImportEntry"
  fields :=
    [⟨"name", true, fun item => do
        let text ← item.readString
        return fun entry => { entry with name := text }⟩,
      ⟨"as", false, fun item => do
        let text ← item.readString?
        return fun entry => { entry with renamed := text }⟩,
      ⟨"from", true, fun item => do
        let text ← item.readString
        return fun entry => { entry with source := text }⟩,
      ⟨"type", false, fun item => do
        let value ← item.readBool
        return fun entry => { entry with isType := value }⟩]
  unread := ⟨"", none, "", false⟩

/-- A detailed name of a preset in JSON, read as an entry of no module. -/
def presetImportRecord : Record Entry where
  title := "a name with details"
  fields :=
    [⟨"name", true, fun item => do
        let text ← item.readString
        return fun entry => { entry with name := text }⟩,
      ⟨"as", false, fun item => do
        let text ← item.readString?
        return fun entry => { entry with renamed := text }⟩,
      ⟨"type", false, fun item => do
        let value ← item.readBool
        return fun entry => { entry with isType := value }⟩]
  unread := ⟨"", none, "", false⟩

/-- The first of two readings that succeeds, in a form called by a name. -/
def firstOf {α : Type} (form : String) (first second : Except Complaint α) :
    Except Complaint α :=
  match first, second with
  | .ok value, _ => .ok value
  | _, .ok value => .ok value
  | _, _ => .error (.noVariant form)

/-- A name of a preset: a string, or an object with details. -/
def readPresetImport (item : Outline) : Except Complaint PresetImport :=
  firstOf "PresetImport" (item.readString.map .bare)
    ((presetImportRecord.readObject item).map fun entry =>
      .detailed entry.name entry.renamed entry.isType)

/-- A preset in JSON. -/
def presetRecord : Record Preset where
  title := "a table of names"
  fields :=
    [⟨"from", true, fun item => do
        let text ← item.readString
        return fun preset => { preset with source := text }⟩,
      ⟨"imports", true, fun item => do
        let imports ← item.readList readPresetImport
        return fun preset => { preset with imports := imports }⟩]
  unread := ⟨"", []⟩

/-- A preset: a string, or a table. -/
def readPresetSpec (room : Nat) (item : Outline) : Except Complaint PresetSpec := do
  let _ ← item.read room
  firstOf "PresetSpec" (item.readString.map .builtin) ((presetRecord.read item).map .inline)

/-- A directory in JSON. -/
def scanDirRecord : Record ScanDir where
  title := "a directory with details"
  fields :=
    [⟨"path", true, fun item => do
        let text ← item.readText "path string"
        return fun dir => { dir with path := text }⟩,
      ⟨"types", false, fun item => do
        let value ← item.readBool
        return fun dir => { dir with types := value }⟩,
      ⟨"include", false, fun item => do
        let globs ← item.readList Outline.readString
        return fun dir => { dir with includes := globs }⟩,
      ⟨"exclude", false, fun item => do
        let globs ← item.readList Outline.readString
        return fun dir => { dir with excludes := globs }⟩]
  unread := .ofPath ""

/-- A directory: a string, or an object with details. -/
def readDirSpec (room : Nat) (item : Outline) : Except Complaint DirSpec := do
  let _ ← item.read room
  firstOf "DirSpec" (item.readString.map .bare) ((scanDirRecord.read item).map .detailed)

/-- The declaration file: a truth value, or a path. -/
def readDeclarationOutput (room : Nat) (item : Outline) : Except Complaint DeclarationOutput := do
  let _ ← item.read room
  firstOf "DtsOption" (item.readBool.map .enabled) (item.readString.map .file)

/-- The word for an access: a string, or an object with that one key and null. -/
def accessWord? : Value → Option String
  | .string word => some word
  | .object [(word, .null)] => some word
  | _ => none

/-- What a linter is told about a name: a truth value, or an access. -/
def readSetting (room : Nat) (item : Outline) : Except Complaint Globals.Setting := do
  let value ← item.read room
  match value with
  | .bool flag => return .flag flag
  | other =>
      match (accessWord? other).bind Globals.Access.ofWord? with
      | some access => return .access access
      | none => .error (.noVariant "GlobalsPropValue")

/-- The linter's options in JSON. -/
def linterRecord (room : Nat) : Record LinterOptions where
  title := "struct EslintOptions"
  fields :=
    [⟨"enabled", false, fun item => do
        let value ← item.readBool
        return fun linter => { linter with enabled := value }⟩,
      ⟨"filepath", false, fun item => do
        let text ← item.readText "path string"
        return fun linter => { linter with path := text }⟩,
      ⟨"globalsPropValue", false, fun item => do
        let setting ← readSetting (room - 1) item
        return fun linter => { linter with setting := setting }⟩]
  unread := .default

/-- The options in JSON. -/
def optionsRecord (room : Nat) : Record Options where
  title := "struct AutoImportsOptions"
  fields :=
    [⟨"imports", false, fun item => do
        let imports ← item.readList entryRecord.read
        return fun options => { options with imports := imports }⟩,
      ⟨"presets", false, fun item => do
        let presets ← item.readList (readPresetSpec (room - 2))
        return fun options => { options with presets := presets }⟩,
      ⟨"dirs", false, fun item => do
        let dirs ← item.readList (readDirSpec (room - 2))
        return fun options => { options with dirs := dirs }⟩,
      ⟨"dts", false, fun item => do
        let output ← readDeclarationOutput (room - 1) item
        return fun options => { options with declarations := output }⟩,
      ⟨"eslint", false, fun item => do
        let linter ← (linterRecord (room - 1)).read item
        return fun options => { options with linter := linter }⟩,
      ⟨"debug", false, fun item => do
        let value ← item.readBool
        return fun options => { options with debug := value }⟩]
  unread := .default

/-- An injection in JSON. -/
def injectionRecord : Record Injection where
  title := "struct InjectResult"
  fields :=
    [⟨"code", true, fun item => do
        let text ← item.readString
        return fun injection => { injection with code := text }⟩,
      ⟨"injected", false, fun item => do
        let names ← item.readList Outline.readString
        return fun injection => { injection with injected := names }⟩]
  unread := ⟨"", []⟩

/-- Reads options from a text. -/
def ofText (text : List Char) : Except Complaint Options :=
  readText (optionsRecord depthLimit).read text

end ImportSupply.Options
