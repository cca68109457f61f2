import ImportSupply.Registry

/-!
# Import blocks

The import statements for a list of used names: the modules in the order of their first used name,
for each of them one line of values and one line of types, and in a line the entries in the order
of use.
-/

namespace ImportSupply.ImportBlock

/-- A character inside a single-quoted literal: a backslash goes before backslashes and quotes. -/
def escapeChar (c : Char) : List Char :=
  if c = '\\' ∨ c = '\'' then ['\\', c] else [c]

/-- A module specifier as a single-quoted literal. -/
def quoteSource (source : String) : List Char :=
  '\'' :: source.toList.flatMap escapeChar ++ ['\'']

/-- An entry between the braces of an import statement. -/
def specifier (entry : Entry) : List Char :=
  if entry.isAliased then entry.name.toList ++ " as ".toList ++ entry.localName.toList
  else entry.name.toList

/-- The import statement of some entries of one module. -/
def statement (keywords source : String) (entries : List Entry) : List Char :=
  keywords.toList ++ " \x7b ".toList ++ ", ".toList.intercalate (entries.map specifier) ++
    " \x7d from ".toList ++ quoteSource source

/-- The import statement of some entries of one module, or no statement for no entries. -/
def statement? (keywords source : String) (entries : List Entry) : List (List Char) :=
  if entries.isEmpty then [] else [statement keywords source entries]

/-- What a block imports from one module. -/
structure Group where
  source : String
  values : List Entry
  types : List Entry
  deriving DecidableEq, Repr

namespace Group

/-- A group with one more entry, behind those of its kind. -/
def add (group : Group) (entry : Entry) : Group :=
  if entry.isType then { group with types := group.types ++ [entry] }
  else { group with values := group.values ++ [entry] }

/-- The import statements of a group: values, then types. -/
def statements (group : Group) : List (List Char) :=
  statement? "import" group.source group.values ++
    statement? "import type" group.source group.types

end Group

/-- Adds an entry to the group of its module. A module without a group gets one behind the
others. -/
def file : List Group → Entry → List Group
  | [], entry => [Group.add ⟨entry.source, [], []⟩ entry]
  | group :: groups, entry =>
      if group.source = entry.source then group.add entry :: groups
      else group :: file groups entry

/-- Adds the entry of a used name to the groups; a name that is not registered is passed over. -/
def fileUsed (registry : Registry) (groups : List Group) (name : String) : List Group :=
  match registry.get? name with
  | some entry => file groups entry
  | none => groups

/-- The lines of the import block for some used names, filed by their modules one after another. -/
def lines (registry : Registry) (used : List String) : List (List Char) :=
  (used.foldl (fileUsed registry) []).flatMap Group.statements

/-- The import block for some used names. -/
def text (registry : Registry) (used : List String) : List Char :=
  ['\n'].intercalate (lines registry used)

end ImportSupply.ImportBlock
