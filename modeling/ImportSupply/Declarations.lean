import ImportSupply.ImportBlock

/-!
# Declaration files

A declaration file makes the names of a registry known to a type checker: one line a name, in
increasing order of the local names, inside one global block.
-/

namespace ImportSupply.Declarations

/-- The first line of the file. -/
def banner : String :=
  "// Generated by auto-imports-native. Do not edit."

/-- Entries in increasing order of their local names. -/
def sorted (entries : List Entry) : List Entry :=
  entries.mergeSort fun a b => decide (a.localName ≤ b.localName)

/-- The line that declares one entry. -/
def line (entry : Entry) : List Char :=
  let named := entry.localName.toList
  let imported :=
    "import(".toList ++ ImportBlock.quoteSource entry.source ++ ")['".toList ++
      entry.name.toList ++ "']\n".toList
  if entry.isType then "  type ".toList ++ named ++ " = ".toList ++ imported
  else "  const ".toList ++ named ++ ": typeof ".toList ++ imported

/-- The declaration file of a registry. -/
def text (registry : Registry) : List Char :=
  banner.toList ++ "\nexport \x7b\x7d\n\ndeclare global \x7b\n".toList ++
    (sorted registry.entries).flatMap line ++ "\x7d\n".toList

end ImportSupply.Declarations
