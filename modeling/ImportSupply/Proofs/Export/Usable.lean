import ImportSupply.Declarations
import ImportSupply.Globals
import ImportSupply.Proofs.Export.Exactness

/-!
# Which exports a script can use

Every entry of a scanned script comes from its module, under one name or as the default export under
another. Whether a script can use that name depends on what the entry was read from. An exported
declaration always gives a name that a statement can bind, but that may be `default`. A list never
gives `default`, but whatever else stands in a specifier. These are the only two ways in which an
entry goes wrong (`not_usable_iff_of_mem_entries`).
-/

namespace ImportSupply

/-- An entry of a module: provided under the name that scripts use, or as the default export. -/
def Entry.ProvidedBy (source : String) (entry : Entry) : Prop :=
  entry.source = source ∧
    (entry.name = entry.localName ∧ entry.renamed = none ∨
      entry.name = "default" ∧ entry.renamed = some entry.localName)

/-- An entry of a module whose name scripts can use. -/
structure Entry.Usable (source : String) (entry : Entry) : Prop where
  provided : entry.ProvidedBy source
  bindable : Name.isBindable entry.localName.toList = true
  ne_default : entry.localName ≠ "default"

theorem Entry.usable_iff {source : String} {entry : Entry} :
    entry.Usable source ↔ entry.ProvidedBy source ∧
      Name.isBindable entry.localName.toList = true ∧ entry.localName ≠ "default" :=
  ⟨fun ⟨provided, bindable, other⟩ => ⟨provided, bindable, other⟩,
    fun ⟨provided, bindable, other⟩ => ⟨provided, bindable, other⟩⟩

instance (source : String) (entry : Entry) : Decidable (entry.ProvidedBy source) :=
  inferInstanceAs (Decidable (_ ∧ _))

instance (source : String) (entry : Entry) : Decidable (entry.Usable source) :=
  decidable_of_iff' _ Entry.usable_iff

namespace Export

open Pattern Literal

/-! ## Where entries come from -/

/-- An exported declaration of a masked script has a name. -/
def HeadingNames (masked : List Char) (name : String) : Prop :=
  ∃ form : Form, form ≠ .list ∧ ∃ found ∈ form.pattern.allMatches masked,
    found.piece? 1 = some name.toList

/-- A local list of a masked script has a specifier that exports something under a name. -/
def ListNames (masked : List Char) (name : String) : Prop :=
  ∃ found ∈ listExport.allMatches masked, found.piece? 3 = none ∧
    ∃ list, found.piece? 2 = some list ∧ ∃ specifier ∈ list.splitOn ',',
      exportedOf (untyped false (Text.trim specifier)).2 = name.toList

theorem mem_entries_iff {script : List Char} {source : String} {types : Bool} {entry : Entry} :
    entry ∈ entries script source types ↔ ∃ form : Form,
      ∃ found ∈ form.pattern.allMatches (mask script), entry ∈ form.ofMatch source types found := by
  have spread_iff {place : Nat} {listed : List Entry} :
      (∃ item ∈ spread place listed, item.entry = entry) ↔ entry ∈ listed := by
    rw [← List.mem_map, map_entry_spread]
  rw [entries, List.mem_map]
  simp only [List.mem_mergeSort, found_eq, List.mem_flatMap]
  constructor
  · rintro ⟨item, ⟨form, -, found, member, own⟩, same⟩
    exact ⟨form, found, member, spread_iff.mp ⟨item, own, same⟩⟩
  · rintro ⟨form, found, member, own⟩
    obtain ⟨item, own, same⟩ := spread_iff.mpr own
    exact ⟨item, ⟨form, form.mem_all, found, member, own⟩, same⟩

section

variable {masked : List Char} {source : String} {types : Bool} {entry : Entry} {found : Match Char}

theorem Form.of_ofName {form : Form} {name : String}
    (made : form.ofName source types name = some entry) :
    entry.localName = name ∧ entry.ProvidedBy source := by
  rw [Form.ofName] at made
  split at made
  next => cases made
  next =>
    rcases form with kind | _ | _
    · cases kind with
      | binding | function | objectClass | enumeration =>
        cases made
        exact ⟨rfl, rfl, .inl ⟨rfl, rfl⟩⟩
      | typeAlias | interface =>
        simp only [Naming.entryOf?] at made
        split at made
        · cases made
          exact ⟨rfl, rfl, .inl ⟨rfl, rfl⟩⟩
        · cases made
    · cases made
      exact ⟨rfl, rfl, .inr ⟨rfl, rfl⟩⟩
    · cases made

/-- A match that is no list makes an entry of the name it found. -/
theorem headingNames_of_ofMatch {form : Form} (names : form ≠ .list)
    (member : found ∈ form.pattern.allMatches masked)
    (own : entry ∈ form.ofMatch source types found) :
    HeadingNames masked entry.localName ∧ entry.ProvidedBy source := by
  rw [Form.ofMatch, if_neg names, Option.mem_toList, Option.bind_eq_some_iff] at own
  obtain ⟨named, piece, made⟩ := own
  obtain ⟨local_eq, provided⟩ := Form.of_ofName made
  refine ⟨⟨form, names, found, member, ?_⟩, provided⟩
  rw [local_eq, piece, String.toList_ofList]

/-- A list makes entries of what its specifiers export. -/
theorem listNames_of_ofMatch (member : found ∈ listExport.allMatches masked)
    (own : entry ∈ Form.list.ofMatch source types found) :
    ListNames masked entry.localName ∧ entry.localName ≠ "default" ∧ entry.ProvidedBy source := by
  obtain ⟨front, piece, rest, captures, -, spells, found_eq⟩ :=
    exists_spells_of_mem_allMatches member
  obtain ⟨_, _, list, _, -, -, -, -, remembered⟩ := exists_of_spells_listExport spells
  have inner : found.piece? 2 = some list := by
    rw [found_eq]
    exact remembered _ _
  rw [Form.ofMatch, if_pos rfl, inner, Option.getD_some] at own
  split at own
  next => cases own
  next isLocal =>
    obtain ⟨specifier, listed, made⟩ := List.mem_filterMap.mp own
    obtain ⟨other, isType, rfl⟩ := eq_of_ofSpecifier made
    -- whether the list is one of types decides on the entry's type, not on its name
    have bare (listIsType : Bool) : (untyped listIsType (Text.trim specifier)).2 =
        (untyped false (Text.trim specifier)).2 := by
      rw [untyped, untyped]
      split <;> rfl
    refine ⟨⟨found, member, by simpa using isLocal, list, inner, specifier, listed, ?_⟩, ?_,
      rfl, .inl ⟨rfl, rfl⟩⟩
    · rw [← bare (found.piece? 1).isSome]
      exact String.toList_ofList.symm
    · intro same
      apply other
      rw [← same]
      exact String.toList_ofList.symm

end

/-- An exported declaration has a name that a statement can bind. -/
theorem HeadingNames.isBindable {masked : List Char} {name : String}
    (heading : HeadingNames masked name) : Name.isBindable name.toList = true := by
  obtain ⟨form, names, found, member, piece⟩ := heading
  obtain ⟨front, _, rest, captures, -, spells, rfl⟩ := exists_spells_of_mem_allMatches member
  obtain ⟨gap, opening, named, closing, -, -, -, -, -, bindable, -, -, rfl⟩ :=
    (Form.spells_iff names).mp spells
  obtain rfl : named = name.toList := by simpa [Match.piece?, Capture.piece] using piece
  exact bindable

/-! ## Entries that go wrong -/

/-- **Which exports go wrong.** Every entry of a script is provided by the script's module. A script
cannot use it just in two cases: it is called `default`, and an exported declaration is; or its name
is none that a statement can bind, and a local list exports something under it. -/
theorem not_usable_iff_of_mem_entries (script : List Char) (source : String) (types : Bool) :
    ∀ entry ∈ entries script source types, entry.ProvidedBy source ∧
      (¬entry.Usable source ↔
        entry.localName = "default" ∧ HeadingNames (mask script) entry.localName ∨
          Name.isBindable entry.localName.toList = false ∧
            ListNames (mask script) entry.localName) := by
  intro entry member
  obtain ⟨form, found, matched, own⟩ := mem_entries_iff.mp member
  by_cases isList : form = .list
  · subst isList
    obtain ⟨listed, other, provided⟩ := listNames_of_ofMatch matched own
    refine ⟨provided, ?_⟩
    simp [Entry.usable_iff, provided, other, listed]
  · obtain ⟨heading, provided⟩ := headingNames_of_ofMatch isList matched own
    refine ⟨provided, ?_⟩
    simp [Entry.usable_iff, provided, heading, heading.isBindable]

/-- A declaration called `default`, a specifier with a tab, and one of the usual form. -/
theorem not_usable_iff_of_mem_entries_mixed :
    let script := "export class default \x7b\x7d\nexport \x7b a\tas b, c as d \x7d".toList
    entries script "m" true = [.value "default" "m", .value "a\tas b" "m", .value "d" "m"] ∧
      HeadingNames (mask script) "default" ∧ ListNames (mask script) "a\tas b" ∧
      (Entry.value "d" "m").Usable "m" := by
  intro script
  have places : found (mask script) "m" true = [⟨0, .value "default" "m"⟩,
      ⟨24, .value "a\tas b" "m"⟩, ⟨25, .value "d" "m"⟩] := by
    decide +kernel
  have listed : entries script "m" true =
      [.value "default" "m", .value "a\tas b" "m", .value "d" "m"] := by
    rw [entries, places, mergeSort_eq (.refl _) (by decide)]
    rfl
  have verdict := not_usable_iff_of_mem_entries script "m" true
  simp only [listed, List.mem_cons, List.not_mem_nil, or_false, forall_eq_or_imp, forall_eq]
    at verdict
  obtain ⟨⟨-, first⟩, ⟨-, second⟩, -, third⟩ := verdict
  refine ⟨listed, ?_, ?_, by decide⟩
  · have unusable := first.mp (by decide)
    exact (unusable.resolve_right fun wrong => absurd wrong.1 (by decide)).2
  · have unusable := second.mp (by decide)
    exact (unusable.resolve_left fun wrong => absurd wrong.1 (by decide)).2

/-- Entries that no script can use: of an export named by a string, of a specifier with a tab before
`as`, whose name the declaration file then does not declare, and of a variable called `default`. -/
theorem entries_unusable :
    entries "const a = 1\nexport \x7b a as 'b c' \x7d".toList "m" true = [.value "'   '" "m"] ∧
      entries "const a = 1\nexport \x7b a\tas b \x7d".toList "m" true = [.value "a\tas b" "m"] ∧
      Globals.names (Declarations.text (Registry.ofEntries [.value "a\tas b" "m"])) = [] ∧
      entries "export const default = 1".toList "m" true = [.value "default" "m"] ∧
      ∀ name ∈ ["'   '", "a\tas b", "default"], ¬(Entry.value name "m").Usable "m" := by
  refine ⟨?_, ?_, ?_, ?_, ?_⟩ <;> decide +kernel

end Export

end ImportSupply
