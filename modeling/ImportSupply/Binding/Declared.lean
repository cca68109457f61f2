import ImportSupply.Binding.Imported

/-!
# Names a script declares

Functions, variables, classes, types, interfaces, enumerations and destructuring patterns declare
names. A declaration anywhere in the masked script counts for all of it.
-/

namespace ImportSupply.Binding

open Pattern

/-- A function, its name in group 1. -/
def functionDeclaration : Pattern Char :=
  all [wordEdge, maybeWord "async", text "function", blanks, maybe (text "*"), blanks,
    group 1 name]

/-- One of the words that declare variables. -/
def variableWord : Pattern Char :=
  anyOf [text "const", text "let", text "var"]

/-- A variable, its name in group 1. -/
def variableDeclaration : Pattern Char :=
  all [wordEdge, variableWord, gap, group 1 name]

/-- Variables taken out of a value: group 1 is a pattern in braces, group 2 one in brackets. -/
def destructuringDeclaration : Pattern Char :=
  all
    [wordEdge, variableWord, blanks, either (bracketed '{' '}' 1) (bracketed '[' ']' 2), blanks,
      text "="]

/-- A class, its name in group 1. -/
def classDeclaration : Pattern Char :=
  all [wordEdge, maybeWord "abstract", text "class", gap, group 1 name]

/-- A type, its name in group 1. -/
def typeDeclaration : Pattern Char :=
  all
    [wordEdge, text "type", gap, group 1 name, blanks,
      maybe (all [text "<", few (· != ';'), text ">"]), blanks, text "="]

/-- An interface, its name in group 1. -/
def interfaceDeclaration : Pattern Char :=
  all [wordEdge, text "interface", gap, group 1 name]

/-- An enumeration, its name in group 1. -/
def enumDeclaration : Pattern Char :=
  all [wordEdge, text "enum", gap, group 1 name]

/-- The patterns of declarations that name one thing, in group 1. -/
def namedDeclarations : List (Pattern Char) :=
  [functionDeclaration, variableDeclaration, classDeclaration, typeDeclaration,
    interfaceDeclaration, enumDeclaration]

/-- Removes the name in group 1 of a match. -/
def removeNamed (candidates : List String) (found : Match Char) : List String :=
  match found.piece? 1 with
  | some name => remove candidates (String.ofList name)
  | none => candidates

/-- Removes the names in group 1 of the matches of a pattern, match by match. -/
def removeCaptured (masked : List Char) (candidates : List String) (declaration : Pattern Char) :
    List String :=
  (declaration.allMatches masked).foldl removeNamed candidates

/-- A text without the triples of dots it starts with. -/
def dropSpread : List Char → List Char
  | '.' :: '.' :: '.' :: rest => dropSpread rest
  | text => text

/-- The name that one part of a destructuring pattern binds: without dots before it and a default
behind it, what follows the last colon. -/
def ofPart (part : List Char) : Option String :=
  let trimmed := Text.trim part
  let target := Text.trim ((dropSpread trimmed).takeWhile (· != '='))
  let renamed :=
    match Text.cutLast [':'] target with
    | some sides => Text.trim sides.2
    | none => target
  -- patterns are cut at every comma, so a part of a nested one still has its brackets
  let bare := Text.dropEnds (fun c => c == '[' || c == ']' || c == '{' || c == '}') renamed
  bindable? (Text.trim bare)

/-- The names that a destructuring pattern binds. -/
def ofDestructuring (pattern : List Char) : List String :=
  (pattern.splitOn ',').filterMap ofPart

/-- Removes the names that a match of `destructuringDeclaration` binds, one by one. -/
def removeDestructured (candidates : List String) (found : Match Char) : List String :=
  match found.piece? 1 <|> found.piece? 2 with
  | some pattern => (ofDestructuring pattern).foldl remove candidates
  | none => candidates

/-- The candidates that a script does not declare itself: each kind of declaration takes out names,
patterns last. Without candidates the script is not searched. -/
def withoutDeclared (script : List Char) (candidates : List String) : List String :=
  if candidates.isEmpty then candidates
  else
    let masked := Literal.mask script
    let unnamed := namedDeclarations.foldl (removeCaptured masked) candidates
    (destructuringDeclaration.allMatches masked).foldl removeDestructured unnamed

end ImportSupply.Binding
