import ImportSupply.Literal.Mask
import ImportSupply.Pattern.Script
import ImportSupply.Pattern.Search
import ImportSupply.Text.Basic

/-!
# Names a script imports

Import statements and re-exports bind names: the default name, the names in braces, and the name of
a namespace. They are looked for in the masked script, so comments and strings bind nothing. A pass
over the candidates of a script removes these names as it finds them.
-/

namespace ImportSupply.Binding

open Pattern

/-- A text as the name it spells, if a statement can bind it. -/
def bindable? (text : List Char) : Option String :=
  if Name.isBindable text then some (String.ofList text) else none

/-- The characters an import clause may hold. -/
def isClauseChar (c : Char) : Bool :=
  !(c == ';' || c == '\'' || c == '"' || c == '\x60' || c == '(' || c == ')')

/-- The word `type` behind the keyword of a statement, or nothing. -/
def maybeType : Pattern Char :=
  maybe (all [gap, text "type", wordEdge])

/-- An import statement up to the quote of its module. Group 1 is a clause that starts with a brace
or a star, group 2 one that starts with a name, both with the blanks behind them. -/
def importStatement : Pattern Char :=
  all
    [wordEdge, text "import", maybeType,
      either
        (all [blanks, group 1 (seq (one fun c => c == '{' || c == '*') (few isClauseChar))])
        (all [gap, group 2 (seq (one Name.isHead) (few isClauseChar))]),
      wordEdge, text "from", blanks, quote]

/-- A star, the word `as` and a gap. -/
def starAs : Pattern Char :=
  all [text "*", blanks, text "as", gap]

/-- The clause of a namespace, its name in group 1. -/
def namespaceClause : Pattern Char :=
  seq starAs (group 1 name)

/-- A re-export up to the quote of its module. Group 1 is a list in braces, group 2 the name of a
namespace, which may run into the word `from`. -/
def reexportStatement : Pattern Char :=
  all
    [wordEdge, text "export", maybeType, blanks,
      either (bracketed '{' '}' 1) (seq starAs (group 2 (seq (one Name.isHead) (few Name.isTail)))),
      blanks, text "from", blanks, quote]

/-- The name that one entry of a list in braces binds: what follows the last `as`, or all of it. -/
def ofSpecifier (specifier : List Char) : Option String :=
  let trimmed := Text.trim specifier
  let untyped := (("type ".toList.isPrefixOf? trimmed).map Text.trimStart).getD trimmed
  bindable?
    (match Text.cutLast " as ".toList untyped with
    | some sides => Text.trim sides.2
    | none => untyped)

/-- The names that a list in braces binds. -/
def ofList (list : List Char) : List String :=
  (list.splitOn ',').filterMap ofSpecifier

/-- The names between the first opening and the last closing brace of a clause. -/
def bracedOfClause (clause : List Char) : List String :=
  match Text.cutFirst ['{'] clause with
  | none => []
  | some sides =>
      match Text.cutLast ['}'] sides.2 with
      | none => []
      | some inner => ofList inner.1

/-- The namespace a clause binds. -/
def namespaceOfClause (clause : List Char) : Option String :=
  (namespaceClause.firstMatch? clause).bind fun found =>
    (found.piece? 1).map String.ofList

/-- The default name a clause binds: what stands before its first brace or star, without the comma
behind it. -/
def defaultOfClause (clause : List Char) : Option String :=
  let head := clause.takeWhile fun c => !(c == '{' || c == '*')
  bindable? (Text.trim (Text.dropEnd (· == ',') (Text.trim head)))

/-- The names an import clause binds. -/
def ofClause (clause : List Char) : List String :=
  bracedOfClause clause ++ (namespaceOfClause clause).toList ++ (defaultOfClause clause).toList

/-- The candidates without a name, the others in their order. -/
def remove (candidates : List String) (name : String) : List String :=
  candidates.filter (· != name)

/-- Removes the names that a match of `importStatement` binds, one by one. -/
def removeImport (candidates : List String) (found : Match Char) : List String :=
  match found.piece? 1 <|> found.piece? 2 with
  | some clause => (ofClause clause).foldl remove candidates
  | none => candidates

/-- Removes the names that a match of `reexportStatement` binds: those of its list, one by one, then
its namespace. -/
def removeReexport (candidates : List String) (found : Match Char) : List String :=
  let unlisted :=
    match found.piece? 1 with
    | some list => (ofList list).foldl remove candidates
    | none => candidates
  match found.piece? 2 with
  | some space => remove unlisted (String.ofList space)
  | none => unlisted

/-- The candidates that a script does not import already: its imports take out names, then its
re-exports. Without candidates the script is not searched. -/
def withoutImported (script : List Char) (candidates : List String) : List String :=
  if candidates.isEmpty then candidates
  else
    let masked := Literal.mask script
    let unimported := (importStatement.allMatches masked).foldl removeImport candidates
    (reexportStatement.allMatches masked).foldl removeReexport unimported

end ImportSupply.Binding
