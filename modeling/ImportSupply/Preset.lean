import ImportSupply.Entry

/-!
# Presets

A preset is a table of names of one module. Some presets are built in and known by name; others are
written out where they are used.
-/

namespace ImportSupply

/-- One name of a preset: bare, or with another name and a kind. -/
inductive PresetImport where
  | bare (name : String)
  | detailed (name : String) (renamed : Option String) (isType : Bool)
  deriving DecidableEq, Repr

/-- A table of names of one module. -/
structure Preset where
  source : String
  imports : List PresetImport
  deriving DecidableEq, Repr

/-- A preset by name or written out. -/
inductive PresetSpec where
  | builtin (name : String)
  | inline (preset : Preset)
  deriving DecidableEq, Repr

namespace Preset

/-- The entry of one name of a preset. -/
def entryOf (source : String) : PresetImport → Entry
  | .bare name => .value name source
  | .detailed name renamed isType => ⟨name, renamed, source, isType⟩

/-- The entries of a preset, in order. -/
def entries (preset : Preset) : List Entry :=
  preset.imports.map (entryOf preset.source)

/-- A preset of bare names. -/
def ofNames (source : String) (names : List String) : Preset :=
  ⟨source, names.map .bare⟩

/-- Signals, lifecycle hooks, component definitions and stores. -/
def stx : Preset :=
  ofNames "stx"
    ["state", "derived", "effect", "batch", "untrack", "peek", "isSignal", "isDerived", "onMount",
      "onDestroy", "ref", "reactive", "computed", "watch", "watchEffect", "watchMultiple",
      "onBeforeMount", "onMounted", "onBeforeUpdate", "onUpdated", "onBeforeUnmount",
      "onUnmounted", "defineProps", "withDefaults", "defineEmits", "defineExpose", "createStore",
      "defineStore", "action", "createSelector"]

/-- Queries, authentication and formatting in a browser. -/
def browser : Preset :=
  ofNames "@stacksjs/browser"
    ["browserQuery", "BrowserQueryBuilder", "BrowserQueryError", "browserAuth",
      "configureBrowser", "getBrowserConfig", "createBrowserDb", "createBrowserModel",
      "isBrowser", "auth", "useAuth", "initApi", "formatAreaSize", "formatDistance",
      "formatElevation", "formatDuration", "getRelativeTime", "fetchData"]

/-- The built-in presets by name. -/
def builtins : List (String × Preset) :=
  [("stx", stx), ("@stacksjs/browser", browser), ("stacksjs-browser", browser)]

/-- The built-in preset of a name. -/
def builtin? (name : String) : Option Preset :=
  builtins.lookup name

end Preset

namespace PresetSpec

/-- The preset that is meant, if there is one. -/
def preset? : PresetSpec → Option Preset
  | builtin name => Preset.builtin? name
  | inline preset => some preset

/-- The entries of some presets, in order; unknown names contribute nothing. -/
def entries (specs : List PresetSpec) : List Entry :=
  (specs.filterMap preset?).flatMap Preset.entries

end PresetSpec

end ImportSupply
