import ImportSupply.Entry

/-!
# Registries

A registry resolves local names to entries. It keeps the order of registration, and of several
entries with one local name the first.
-/

namespace ImportSupply

/-- A list of entries without those whose local name an earlier one has. -/
def firstOfEach : List Entry → List Entry
  | [] => []
  | entry :: rest =>
      entry :: (firstOfEach rest).filter fun other => other.localName != entry.localName

/-- No local name is kept twice: what stands behind an entry has been rid of its name. -/
theorem nodup_localName_firstOfEach (entries : List Entry) :
    ((firstOfEach entries).map Entry.localName).Nodup := by
  induction entries with
  | nil => exact List.nodup_nil
  | cons entry rest ih =>
    rw [firstOfEach, List.map_cons, List.nodup_cons]
    refine ⟨?_, ih.sublist (List.filter_sublist.map _)⟩
    simp

/-- Entries that local names resolve to, in the order of registration. -/
structure Registry where
  entries : List Entry
  nodup_localName : (entries.map Entry.localName).Nodup
  deriving DecidableEq, Repr

namespace Registry

/-- The registry of a list of entries. -/
def ofEntries (entries : List Entry) : Registry :=
  ⟨firstOfEach entries, nodup_localName_firstOfEach entries⟩

/-- The entry that a local name resolves to. -/
def get? (registry : Registry) (name : String) : Option Entry :=
  registry.entries.find? fun entry => entry.localName == name

/-- Whether a local name is registered. -/
def contains (registry : Registry) (name : String) : Bool :=
  (registry.get? name).isSome

/-- The registered local names, in order. -/
def names (registry : Registry) : List String :=
  registry.entries.map Entry.localName

/-- How many names are registered. -/
def size (registry : Registry) : Nat :=
  registry.entries.length

/-- Whether no name is registered. -/
def isEmpty (registry : Registry) : Bool :=
  registry.entries.isEmpty

end Registry

end ImportSupply
