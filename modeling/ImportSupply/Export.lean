import ImportSupply.Binding.Declared
import ImportSupply.Entry
import ImportSupply.Text.Basic

/-!
# Names a script exports

Exported declarations, named default exports and local export lists make entries of the script's
module. Entries come in the order of their places in the masked script, where places count bytes;
the entries of one list count on from the list's own place.
-/

namespace ImportSupply.Export

open Pattern

/-- The start of an exported declaration. -/
def declarationStart : Pattern Char :=
  all [wordEdge, text "export", gap, maybeWord "declare"]

/-- An exported variable, its name in group 1. -/
def variableExport : Pattern Char :=
  all [declarationStart, Binding.variableWord, gap, group 1 name]

/-- An exported function, its name in group 1. -/
def functionExport : Pattern Char :=
  all
    [declarationStart, maybeWord "async", text "function", blanks, maybe (text "*"), blanks,
      group 1 name]

/-- An exported class, its name in group 1. -/
def classExport : Pattern Char :=
  all [declarationStart, maybeWord "abstract", text "class", gap, group 1 name]

/-- An exported enumeration, its name in group 1. -/
def enumExport : Pattern Char :=
  all [declarationStart, maybeWord "const", text "enum", gap, group 1 name]

/-- A function or class exported as the default, its name in group 1. -/
def defaultExport : Pattern Char :=
  all
    [wordEdge, text "export", gap, text "default", gap,
      either (all [maybeWord "async", text "function", maybe (all [blanks, text "*"])])
        (all [maybeWord "abstract", text "class"]),
      gap, group 1 name]

/-- An exported type, its name in group 1. -/
def typeExport : Pattern Char :=
  all
    [declarationStart, text "type", gap, group 1 name, blanks,
      maybe (all [text "<", many (· != '>'), text ">", blanks]), text "="]

/-- An exported interface, its name in group 1. -/
def interfaceExport : Pattern Char :=
  all [declarationStart, text "interface", gap, group 1 name]

/-- An export list: group 1 says that it lists types, group 2 is the list, and group 3 says that it
re-exports from another module. -/
def listExport : Pattern Char :=
  all
    [wordEdge, text "export", gap, maybe (group 1 (all [text "type", gap])),
      bracketed '\x7b' '\x7d' 2, maybe (group 3 (all [blanks, text "from", wordEdge]))]

/-- An entry and its place in the masked script. -/
structure Found where
  place : Nat
  entry : Entry
  deriving DecidableEq, Repr

/-- The place of a match, in bytes. -/
def placeOf (masked : List Char) (found : Match Char) : Nat :=
  Text.byteLength (masked.take found.index)

/-- The entries that the matches of a pattern make of the names in group 1. -/
def collect (masked : List Char) (pattern : Pattern Char) (entryOf : String → Option Entry) :
    List Found :=
  (pattern.allMatches masked).filterMap fun found => do
    let named ← found.piece? 1
    let entry ← entryOf (String.ofList named)
    return ⟨placeOf masked found, entry⟩

/-- The entry of a default export. -/
def defaultEntry (source name : String) : Entry :=
  ⟨"default", some name, source, false⟩

/-- The entry of one specifier of an export list: what follows its first `as`, or all of it. The
default export has no entry, and types have one only if they are wanted. -/
def ofSpecifier (source : String) (listIsType types : Bool) (specifier : List Char) :
    Option Entry :=
  let trimmed := Text.trim specifier
  let (isType, bare) :=
    match "type ".toList.isPrefixOf? trimmed with
    | some rest => (true, Text.trim rest)
    | none => (listIsType, trimmed)
  let exported :=
    match Text.cutFirst " as ".toList bare with
    | some sides => Text.trim sides.2
    | none => bare
  -- an empty part stands behind a comma at the end of the list
  if trimmed.isEmpty || exported == "default".toList || exported.isEmpty then none
  else if isType then if types then some (.type (String.ofList exported) source) else none
  else some (.value (String.ofList exported) source)

/-- The entries of an export list, in its order. -/
def ofList (source : String) (listIsType types : Bool) (list : List Char) : List Entry :=
  (list.splitOn ',').filterMap (ofSpecifier source listIsType types)

/-- The entries of one match of `listExport`. -/
def ofListMatch (masked : List Char) (source : String) (types : Bool) (found : Match Char) :
    List Found :=
  if (found.piece? 3).isSome then []
  else
    let entries :=
      ofList source (found.piece? 1).isSome types ((found.piece? 2).getD [])
    entries.zipIdx.map fun (entry, k) => ⟨placeOf masked found + k, entry⟩

/-- The entries of a masked script, kind by kind. -/
def found (masked : List Char) (source : String) (types : Bool) : List Found :=
  let value := fun name => some (Entry.value name source)
  let type := fun name => if types then some (Entry.type name source) else none
  -- `const enum` also reads as a variable of the name `enum`
  collect masked variableExport (fun name => if name == "enum" then none else value name) ++
    collect masked functionExport value ++
    collect masked classExport value ++
    collect masked enumExport value ++
    collect masked defaultExport (fun name => some (defaultEntry source name)) ++
    collect masked typeExport type ++
    collect masked interfaceExport type ++
    (listExport.allMatches masked).flatMap (ofListMatch masked source types)

/-- The entries that a script exports under a module's specifier, in the order of their places;
types only if they are wanted. -/
def entries (script : List Char) (source : String) (types : Bool) : List Entry :=
  ((found (Literal.mask script) source types).mergeSort
    fun a b => decide (a.place ≤ b.place)).map Found.entry

end ImportSupply.Export
