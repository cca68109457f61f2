/-!
# Entries

An entry says where a name comes from: a module provides it under one name, and a script knows it
under a local name.
-/

namespace ImportSupply

/-- A name that a module provides. -/
structure Entry where
  /-- The name under which the module provides it. -/
  name : String
  /-- The name it takes in a script, if another one. -/
  renamed : Option String
  /-- The module's specifier. -/
  source : String
  /-- Whether it is a type, which exists only while types are checked. -/
  isType : Bool
  deriving DecidableEq, Repr

namespace Entry

/-- A value under its own name. -/
def value (name source : String) : Entry :=
  ⟨name, none, source, false⟩

/-- A type under its own name. -/
def type (name source : String) : Entry :=
  ⟨name, none, source, true⟩

/-- The name a script uses. -/
def localName (entry : Entry) : String :=
  entry.renamed.getD entry.name

/-- Whether a script uses another name than the module provides. -/
def isAliased (entry : Entry) : Bool :=
  entry.localName != entry.name

end Entry

end ImportSupply
