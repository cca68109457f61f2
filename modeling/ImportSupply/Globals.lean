import ImportSupply.Json.Printer
import ImportSupply.Pattern.Script
import ImportSupply.Pattern.Search

/-!
# Global names of a declaration file

The first global block of a declaration file is read back: its constants, then its types. Linters
take these names as JSON, each with a value that says how it may be used.
-/

namespace ImportSupply.Globals

open Pattern

/-- How a linter lets a global name be used. -/
inductive Access where
  | readonly
  | readable
  | writable
  | writeable
  deriving DecidableEq, Repr

namespace Access

/-- The word for an access. -/
def word : Access → String
  | readonly => "readonly"
  | readable => "readable"
  | writable => "writable"
  | writeable => "writeable"

/-- The access a word stands for. -/
def ofWord? (word : String) : Option Access :=
  [readonly, readable, writable, writeable].find? fun access => access.word == word

end Access

/-- What a linter is told about each name. -/
inductive Setting where
  | flag (value : Bool)
  | access (value : Access)
  deriving DecidableEq, Repr

/-- A setting in JSON. -/
def Setting.toJson : Setting → Json.Value
  | flag value => .bool value
  | access value => .string value.word

/-- A run of word characters and dollars, in group 1. -/
def declaredName : Pattern Char :=
  group 1 (several Name.isTail)

/-- A global block, its body in group 1. -/
def globalBlock : Pattern Char :=
  all [text "declare", gap, text "global", blanks, bracketed '\x7b' '\x7d' 1]

/-- A constant in a global block, its name in group 1. -/
def constant : Pattern Char :=
  all [text "const", gap, declaredName, blanks, text ":"]

/-- A type in a global block, its name in group 1. -/
def typeAlias : Pattern Char :=
  all [text "type", gap, declaredName, blanks, text "="]

/-- The names in group 1 of the matches of a pattern. -/
def namesOf (pattern : Pattern Char) (body : List Char) : List String :=
  (pattern.allMatches body).filterMap fun found => (found.piece? 1).map String.ofList

/-- The names that a declaration file declares globally, with repetitions: the constants of its
first global block, then the types. -/
def names (declarations : List Char) : List String :=
  match (globalBlock.firstMatch? declarations).bind fun found => found.piece? 1 with
  | some body => namesOf constant body ++ namesOf typeAlias body
  | none => []

/-- The JSON for a linter: every name once, at its first place, with the setting. -/
def toJson (setting : Setting) (names : List String) : Json.Value :=
  .object
    [("globals", .object (names.eraseDups.map fun name => (name, setting.toJson)))]

/-- The globals file of a declaration file; `none` if that is blank. -/
def text? (setting : Setting) (declarations : List Char) : Option (List Char) :=
  if Text.isBlankText declarations then none
  else some ((toJson setting (names declarations)).indented 0)

end ImportSupply.Globals
