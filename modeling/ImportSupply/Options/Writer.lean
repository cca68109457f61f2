import ImportSupply.Injection
import ImportSupply.Json.Printer
import ImportSupply.Options.Basic

/-!
# Writing options

The JSON forms that options and their parts are written back in: every part that has a default is
written out, and another name only if there is one.
-/

namespace ImportSupply

open Json (Value)

/-- An entry in JSON. -/
def Entry.toJson (entry : Entry) : Value :=
  .object
    ([("name", .string entry.name)] ++
      entry.renamed.toList.map (fun name => ("as", .string name)) ++
      [("from", .string entry.source), ("type", .bool entry.isType)])

/-- A name of a preset in JSON. -/
def PresetImport.toJson : PresetImport → Value
  | bare name => .string name
  | detailed name renamed isType =>
      .object
        ([("name", .string name)] ++ renamed.toList.map (fun name => ("as", .string name)) ++
          [("type", .bool isType)])

/-- A preset in JSON. -/
def Preset.toJson (preset : Preset) : Value :=
  .object
    [("from", .string preset.source), ("imports", .array (preset.imports.map PresetImport.toJson))]

/-- A preset by name or written out, in JSON. -/
def PresetSpec.toJson : PresetSpec → Value
  | builtin name => .string name
  | inline preset => preset.toJson

/-- A directory in JSON. -/
def ScanDir.toJson (dir : ScanDir) : Value :=
  .object
    [("path", .string dir.path), ("types", .bool dir.types),
      ("include", Value.ofStrings dir.includes), ("exclude", Value.ofStrings dir.excludes)]

/-- A directory by its path or with details, in JSON. -/
def DirSpec.toJson : DirSpec → Value
  | bare path => .string path
  | detailed dir => dir.toJson

/-- The declaration file in JSON. -/
def DeclarationOutput.toJson : DeclarationOutput → Value
  | enabled value => .bool value
  | file path => .string path

/-- The linter's options in JSON. -/
def LinterOptions.toJson (linter : LinterOptions) : Value :=
  .object
    [("enabled", .bool linter.enabled), ("filepath", .string linter.path),
      ("globalsPropValue", linter.setting.toJson)]

/-- Options in JSON. -/
def Options.toJson (options : Options) : Value :=
  .object
    [("imports", .array (options.imports.map Entry.toJson)),
      ("presets", .array (options.presets.map PresetSpec.toJson)),
      ("dirs", .array (options.dirs.map DirSpec.toJson)),
      ("dts", options.declarations.toJson), ("eslint", options.linter.toJson),
      ("debug", .bool options.debug)]

/-- An injection in JSON. -/
def Injection.toJson (injection : Injection) : Value :=
  .object
    [("code", .string injection.code), ("injected", Value.ofStrings injection.injected)]

/-- The text that options are written as. -/
def Options.text (options : Options) : List Char :=
  options.toJson.compact

end ImportSupply
