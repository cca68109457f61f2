import ImportSupply.Path
import ImportSupply.Pattern.Search

/-!
# Script files

Which files are scripts, which of them are to be transformed, and under which specifier other
scripts import them.
-/

namespace ImportSupply.Script

open Pattern

/-- The extensions that a module specifier leaves out. -/
def extensions : List String :=
  ["ts", "tsx", "js", "jsx", "mts", "cts", "mjs", "cjs"]

/-- The module specifier of a file: its path without a script's extension, with slashes. -/
def specifier (path : List Char) : List Char :=
  let isScript := (Path.extension? path).any fun extension =>
    extensions.contains (String.ofList extension)
  Path.withSlashes (if isScript then Path.withoutExtension path else path)

/-- One of some characters. -/
def oneOf (characters : List Char) : Pattern Char :=
  one fun c => characters.contains c

/-- The end of a text. -/
def textEnd : Pattern Char :=
  between fun _ after => after.isNone

/-- The end of a script's path. -/
def scriptEnding : Pattern Char :=
  all
    [oneOf ['.'], maybe (oneOf ['c', 'm']), oneOf ['j', 't'], oneOf ['s'], maybe (oneOf ['x']),
      textEnd]

/-- The end of a declaration file's path. -/
def declarationEnding : Pattern Char :=
  all
    [oneOf ['.'], oneOf ['d'], oneOf ['.'], maybe (oneOf ['c', 'm']), oneOf ['t'], oneOf ['s'],
      textEnd]

/-- Whether a pattern matches somewhere in a text. -/
def occursIn (pattern : Pattern Char) (text : List Char) : Bool :=
  (pattern.firstMatch? text).isSome

/-- Whether a file is to be transformed: a script that is no declaration file and lies in no
directory of installed packages. -/
def isTransformed (path : List Char) : Bool :=
  let slashed := Path.withSlashes path
  occursIn scriptEnding slashed && !occursIn declarationEnding slashed &&
    !(slashed.splitOn '/').contains "node_modules".toList

end ImportSupply.Script
