import ImportSupply.Options.Reader
import ImportSupply.Options.Writer
import ImportSupply.Proofs.Json.Forms
import ImportSupply.Proofs.Json.ReadingBack
import ImportSupply.Setup

/-!
# Options come back from their text

Options are written as one object that gives every field, and each part in the one form that fits
it. Whatever reads a part gets it back, and where a part has two forms, the form that is tried first
refuses what is written in the other.
-/

namespace ImportSupply

open Json

/-! ## What is written is not deep -/

theorem Entry.fits_toJson (entry : Entry) (depth : Nat) : entry.toJson.Fits (depth + 1) := by
  refine .object ?_
  simp only [List.forall_mem_append, List.forall_mem_cons, List.forall_mem_map]
  exact ⟨⟨⟨.string _, nofun⟩, fun _ _ => .string _⟩, .string _, .bool _, nofun⟩

theorem PresetImport.fits_toJson (item : PresetImport) (depth : Nat) :
    item.toJson.Fits (depth + 1) := by
  cases item with
  | bare name => exact .string name
  | detailed name renamed isType =>
    refine .object ?_
    simp only [List.forall_mem_append, List.forall_mem_cons, List.forall_mem_map]
    exact ⟨⟨⟨.string _, nofun⟩, fun _ _ => .string _⟩, .bool _, nofun⟩

theorem PresetSpec.fits_toJson (spec : PresetSpec) (depth : Nat) :
    spec.toJson.Fits (depth + 3) := by
  cases spec with
  | builtin name => exact .string name
  | inline preset =>
    have imports : (Value.array (preset.imports.map PresetImport.toJson)).Fits (depth + 2) :=
      .array_map (fun item => item.fits_toJson depth) _
    refine .object ?_
    simp only [List.forall_mem_cons]
    exact ⟨.string _, imports, nofun⟩

theorem DirSpec.fits_toJson (spec : DirSpec) (depth : Nat) : spec.toJson.Fits (depth + 2) := by
  cases spec with
  | bare path => exact .string path
  | detailed dir =>
    have globs (listed : List String) : (Value.ofStrings listed).Fits (depth + 1) :=
      .array_map .string _
    refine .object ?_
    simp only [List.forall_mem_cons]
    exact ⟨.string _, .bool _, globs _, globs _, nofun⟩

theorem DeclarationOutput.fits_toJson (output : DeclarationOutput) (depth : Nat) :
    output.toJson.Fits depth := by
  cases output with
  | enabled value => exact .bool value
  | file path => exact .string path

theorem Globals.Setting.fits_toJson (setting : Globals.Setting) (depth : Nat) :
    setting.toJson.Fits depth := by
  cases setting with
  | flag value => exact .bool value
  | access value => exact .string value.word

theorem LinterOptions.fits_toJson (linter : LinterOptions) (depth : Nat) :
    linter.toJson.Fits (depth + 1) := by
  refine .object ?_
  simp only [List.forall_mem_cons]
  exact ⟨.bool _, .string _, linter.setting.fits_toJson depth, nofun⟩

theorem Options.fits_toJson (options : Options) : options.toJson.Fits 5 := by
  have imports : (Value.array (options.imports.map Entry.toJson)).Fits 4 :=
    .array_map (fun entry => entry.fits_toJson 2) _
  have presets : (Value.array (options.presets.map PresetSpec.toJson)).Fits 4 :=
    .array_map (fun spec => spec.fits_toJson 0) _
  have dirs : (Value.array (options.dirs.map DirSpec.toJson)).Fits 4 :=
    .array_map (fun spec => spec.fits_toJson 1) _
  refine .object ?_
  simp only [List.forall_mem_cons]
  exact ⟨imports, presets, dirs, options.declarations.fits_toJson 4, options.linter.fits_toJson 3,
    .bool _, nofun⟩

namespace Options

/-! ## Each part is read back -/

theorem readsBack_string : ReadsBack Outline.readString Value.string :=
  fun _ => rfl

theorem readsBack_entry : ReadsBack entryRecord.read Entry.toJson := by
  intro entry
  obtain ⟨name, renamed, source, isType⟩ := entry
  show entryRecord.readObject (Value.object _).outline = _
  cases renamed with
  | none =>
    exact Record.readObject_outline
      (.cons (.of_read rfl rfl) (.cons (.of_read rfl rfl) (.cons (.of_read rfl rfl) .nil)))
      (show entryRecord.Covers ["name", "from", "type"] by decide) rfl
  | some other =>
    exact Record.readObject_outline
      (.cons (.of_read rfl rfl) (.cons (.of_read rfl rfl) (.cons (.of_read rfl rfl)
        (.cons (.of_read rfl rfl) .nil))))
      (show entryRecord.Covers ["name", "as", "from", "type"] by decide) rfl

theorem readsBack_presetImport : ReadsBack readPresetImport PresetImport.toJson := by
  intro item
  cases item with
  | bare name => rfl
  | detailed name renamed isType =>
    -- an object is no string, so the second form is the one that counts
    have read : presetImportRecord.readObject
        (PresetImport.detailed name renamed isType).toJson.outline =
        .ok ⟨name, renamed, "", isType⟩ := by
      cases renamed with
      | none =>
        exact Record.readObject_outline (.cons (.of_read rfl rfl) (.cons (.of_read rfl rfl) .nil))
          (show presetImportRecord.Covers ["name", "type"] by decide) rfl
      | some other =>
        exact Record.readObject_outline
          (.cons (.of_read rfl rfl) (.cons (.of_read rfl rfl) (.cons (.of_read rfl rfl) .nil)))
          (show presetImportRecord.Covers ["name", "as", "type"] by decide) rfl
    rw [readPresetImport, read]
    rfl

theorem readsBack_preset : ReadsBack presetRecord.read Preset.toJson := by
  intro preset
  show presetRecord.readObject (Value.object _).outline = _
  exact Record.readObject_outline
    (.cons (.of_read rfl rfl) (.cons (.of_read rfl (readsBack_presetImport.list _)) .nil))
    (show presetRecord.Covers ["from", "imports"] by decide) rfl

theorem readsBack_presetSpec {room : Nat} (enough : 3 < room) :
    ReadsBack (readPresetSpec room) PresetSpec.toJson := by
  intro spec
  rw [readPresetSpec, (spec.fits_toJson 0).read_outline enough]
  cases spec with
  | builtin name => rfl
  | inline preset =>
    show firstOf _ _ ((presetRecord.read preset.toJson.outline).map _) = _
    rw [readsBack_preset]
    rfl

theorem readsBack_scanDir : ReadsBack scanDirRecord.read ScanDir.toJson := by
  intro dir
  show scanDirRecord.readObject (Value.object _).outline = _
  exact Record.readObject_outline
    (.cons (.of_read rfl rfl) (.cons (.of_read rfl rfl)
      (.cons (.of_read rfl (readsBack_string.list _))
        (.cons (.of_read rfl (readsBack_string.list _)) .nil))))
    (show scanDirRecord.Covers ["path", "types", "include", "exclude"] by decide) rfl

theorem readsBack_dirSpec {room : Nat} (enough : 2 < room) :
    ReadsBack (readDirSpec room) DirSpec.toJson := by
  intro spec
  rw [readDirSpec, (spec.fits_toJson 0).read_outline enough]
  cases spec with
  | bare path => rfl
  | detailed dir =>
    show firstOf _ _ ((scanDirRecord.read dir.toJson.outline).map _) = _
    rw [readsBack_scanDir]
    rfl

theorem readsBack_declarationOutput {room : Nat} (enough : 0 < room) :
    ReadsBack (readDeclarationOutput room) DeclarationOutput.toJson := by
  intro output
  rw [readDeclarationOutput, (output.fits_toJson 0).read_outline enough]
  cases output with
  | enabled value => rfl
  | file path => rfl

theorem readsBack_setting {room : Nat} (enough : 0 < room) :
    ReadsBack (readSetting room) Globals.Setting.toJson := by
  intro setting
  rw [readSetting, (setting.fits_toJson 0).read_outline enough]
  cases setting with
  | flag value => rfl
  | access value => cases value <;> rfl

theorem readsBack_linter {room : Nat} (enough : 1 < room) :
    ReadsBack (linterRecord room).read LinterOptions.toJson := by
  intro linter
  show (linterRecord room).readObject (Value.object _).outline = _
  exact Record.readObject_outline
    (.cons (.of_read rfl rfl) (.cons (.of_read rfl rfl)
      (.cons (.of_read rfl (readsBack_setting (Nat.sub_pos_of_lt enough) _)) .nil)))
    ⟨show ["enabled", "filepath", "globalsPropValue"].Nodup by decide, by simp [linterRecord]⟩ rfl

theorem readsBack_options {room : Nat} (enough : 5 < room) :
    ReadsBack (optionsRecord room).read Options.toJson := by
  intro options
  let record := optionsRecord room
  have imports : record.Sets ("imports", .array (options.imports.map Entry.toJson)) _ :=
    .of_read rfl (readsBack_entry.list _)
  have presets : record.Sets ("presets", .array (options.presets.map PresetSpec.toJson)) _ :=
    .of_read rfl ((readsBack_presetSpec (show 3 < room - 2 by omega)).list _)
  have dirs : record.Sets ("dirs", .array (options.dirs.map DirSpec.toJson)) _ :=
    .of_read rfl ((readsBack_dirSpec (show 2 < room - 2 by omega)).list _)
  have output : record.Sets ("dts", options.declarations.toJson) _ :=
    .of_read rfl (readsBack_declarationOutput (show 0 < room - 1 by omega) _)
  have linter : record.Sets ("eslint", options.linter.toJson) _ :=
    .of_read rfl (readsBack_linter (show 1 < room - 1 by omega) _)
  have debug : record.Sets ("debug", .bool options.debug) _ := .of_read rfl rfl
  have covers : record.Covers ["imports", "presets", "dirs", "dts", "eslint", "debug"] :=
    ⟨by decide, by simp [record, optionsRecord]⟩
  show record.readObject (Value.object _).outline = _
  exact Record.readObject_outline
    (.cons imports (.cons presets (.cons dirs (.cons output (.cons linter (.cons debug .nil))))))
    covers rfl

/-! ## Whole texts -/

theorem parse_of_written {options : Options} {before text behind : List Char}
    (blank : Spaces before) (written : Written options.toJson text) (blank' : Spaces behind)
    (origin : String) :
    Options.parse (String.ofList (before ++ (text ++ behind))) origin = .ok options := by
  have enough : 5 < depthLimit := by decide
  rw [Options.parse, String.toList_ofList, ofText, written.readText_eq blank blank',
    readsBack_options enough]
  rfl

theorem parse_text_eq (options : Options) (origin : String) :
    Options.parse (String.ofList options.text) origin = .ok options := by
  have read := parse_of_written spaces_nil options.fits_toJson.written_compact spaces_nil origin
  rwa [List.nil_append, List.append_nil] at read

/-- **Options come back from their text.** The text that options are written as writes their value,
and every text that does, with any space in it and around it, is read as these options. So to read a
text, write what it says and read that again is to read the text, be it refused or not. -/
theorem parse_written (origin : String) :
    (∀ options : Options, Written options.toJson options.text ∧
      (∀ level, Written options.toJson (options.toJson.indented level)) ∧
      Options.parse (String.ofList options.text) origin = .ok options) ∧
    (∀ (options : Options) (before text behind : List Char), Spaces before →
      Written options.toJson text → Spaces behind →
      Options.parse (String.ofList (before ++ (text ++ behind))) origin = .ok options) ∧
    ∀ given : String, (do
      let options ← Options.parse given origin
      Options.parse (String.ofList options.text) origin) = Options.parse given origin := by
  refine ⟨fun options => ⟨options.fits_toJson.written_compact,
    options.fits_toJson.written_indented, options.parse_text_eq origin⟩, ?_, fun given => ?_⟩
  · intro options before text behind blank written blank'
    exact parse_of_written blank written blank' origin
  · simp only [parse_text_eq]
    exact bind_pure _

/-- Options with a part in each form, and a name whose characters have to be escaped. -/
def mixedOptions : Options :=
  ⟨[⟨"ref", some "\"\\\n\x01é😀", "vue", false⟩, .value "h" "vue"],
    [.builtin "vue", .inline ⟨"lib", [.bare "a", .detailed "b" (some "c") true]⟩],
    [.bare "src", .detailed ⟨"lib", false, [], ["**/*.d.ts"]⟩], .enabled false,
    ⟨true, "globals.json", .access .readonly⟩, true⟩

theorem parse_written_mixed :
    mixedOptions.imports.map (fun entry => entry.toJson.compact) =
      ["\x7b\"name\":\"ref\",\"as\":\"\\\"\\\\\\n\\u0001é😀\",\"from\":\"vue\"".toList ++
          ",\"type\":false\x7d".toList,
        "\x7b\"name\":\"h\",\"from\":\"vue\",\"type\":false\x7d".toList] ∧
    Options.parse (String.ofList (['\n'] ++ (mixedOptions.toJson.indented 0 ++ [' '])))
      "options.json" = .ok mixedOptions :=
  ⟨by decide +kernel, (parse_written "options.json").2.1 _ _ _ _ (spaces_newLine 0)
    (mixedOptions.fits_toJson.written_indented 0) spaces_blank⟩

end Options

end ImportSupply
