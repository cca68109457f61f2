import ImportSupply.Proofs.Export.Usable
import ImportSupply.Proofs.Injection.Specification

/-!
# A script and its own exports

A script whose exports are registered uses most of the names that it exports, and must not be made
to import them from itself. What its declarations export is declared, and what a list exports under
its own name is declared elsewhere in the script. So all that such a script can be made to import
from itself are names that a list gives with `as`, and of these only what the script does not
declare (`inject_own_exports`).
-/

namespace ImportSupply.Export

open Pattern Binding

section

variable {parts : List Part}

/-- What a type export names is declared by a part. -/
theorem mem_declaredNames_of_typeExport (formed : isFormed [] parts = true) {found : Match Char}
    {named : List Char} (member : found ∈ typeExport.allMatches (textOf parts))
    (piece : found.piece? 1 = some named) : String.ofList named ∈ declaredNames parts := by
  rw [typeExport_eq] at member
  obtain ⟨front, _, rest, _, text, spells, rfl⟩ := exists_spells_of_mem_allMatches member
  -- the match starts at the word `export`, where an exporting part starts
  obtain ⟨part, after, own, exports, whole, here⟩ :=
    exists_part_of_match formed text (spells_exportOf.mp spells)
  obtain ⟨lead, middle, opening, name, back, rfl, -, starts, modifies, opens, bindable, stops, -,
    rfl⟩ := exists_of_spells_exportOf passes_typeClosing spells
  obtain rfl : name = named := by simpa [Match.piece?, Capture.piece] using piece
  obtain rfl : middle = [] := by simpa using modifies
  obtain ⟨-, _, word, keyword, separator, rfl | ⟨_, wrong, -⟩, isGap, rfl⟩ := opens
  · obtain rfl := List.mem_singleton.mp keyword
    have declared := Part.mem_declared_of_type exports whole isGap bindable stops
      (by simpa using starts) (by simpa using here)
    exact List.mem_flatMap.mpr ⟨part, own, declared⟩
  · cases wrong

/-- The name of an exported declaration is declared in the script. -/
theorem HeadingNames.mem_declaredIn (formed : isFormed [] parts = true) {name : String}
    (heading : HeadingNames (textOf parts) name) : name ∈ declaredIn (textOf parts) := by
  obtain ⟨form, names, found, member, piece⟩ := heading
  have declared : String.ofList name.toList ∈ declaredIn (textOf parts) := by
    rcases form with kind | _ | _
    · cases kind with
      | typeAlias =>
        -- the two patterns for types differ in the parameters they read, so the parts decide
        exact mem_declaredIn_of_mem_declaredNames formed
          (mem_declaredNames_of_typeExport formed member piece)
      | binding =>
        rw [Form.pattern, variableExport_eq] at member
        exact mem_declaredIn_of_exportOf (by decide) (by decide) member piece
      | function =>
        rw [Form.pattern, functionExport_eq] at member
        exact mem_declaredIn_of_exportOf (by decide) (by decide) member piece
      | objectClass =>
        rw [Form.pattern, classExport_eq] at member
        exact mem_declaredIn_of_exportOf (by decide) (by decide) member piece
      | interface =>
        rw [Form.pattern, interfaceExport_eq] at member
        exact mem_declaredIn_of_exportOf (by decide) (by decide) member piece
      | enumeration =>
        rw [Form.pattern, enumExport_eq] at member
        exact mem_declaredIn_of_exportOf (by decide) (by decide) member piece
    · exact mem_declaredIn_of_defaultExport member piece
    · exact absurd rfl names
  rwa [String.ofList_toList] at declared

/-- The entries of a list export are those of a part's specifiers. -/
theorem exists_specifier_of_listExport (formed : isFormed [] parts = true) {found : Match Char}
    {source : String} {types : Bool} {entry : Entry}
    (member : found ∈ listExport.allMatches (textOf parts))
    (listed : entry ∈ Form.list.ofMatch source types found) :
    ∃ specifier ∈ specifiersOf parts, ∃ listIsType,
      ofSpecifier source listIsType types specifier.text = some entry := by
  obtain ⟨front, _, rest, _, text, spells, rfl⟩ := exists_spells_of_mem_allMatches member
  obtain ⟨part, after, own, exports, -, here⟩ := exists_part_of_match formed text spells
  obtain ⟨gap, typed, list, back, isGap, isTyped, inside, rfl, piece⟩ :=
    exists_of_spells_listExport spells
  simp only [List.append_assoc, List.cons_append] at here
  obtain ⟨slots, specifiers, rfl⟩ := Part.exists_list exports isGap isTyped inside here
  rw [Form.ofMatch, if_pos rfl] at listed
  split at listed
  · cases listed
  · rw [piece, Option.getD_some] at listed
    obtain ⟨specifier, mine, made⟩ := exists_specifier_of_mem_ofList listed
    rw [← specifiers] at mine
    exact ⟨specifier, List.mem_flatMap.mpr ⟨part, own, mine⟩, _, made⟩

/-- An exported name without blanks is declared, or a list's. -/
theorem localName_of_mem_entries (formed : isFormed [] parts = true) {script : List Char}
    (masked : Literal.mask script = textOf parts) {source : String} {types : Bool} {entry : Entry}
    (member : entry ∈ entries script source types)
    (solid : ∀ c ∈ entry.localName.toList, Text.isBlank c = false) :
    entry.localName ∈ declaredIn (textOf parts) ∨
      entry.localName ≠ "default" ∧
        ∃ specifier ∈ specifiersOf parts, entry.localName = specifier.exported.name := by
  obtain ⟨form, found, matched, own⟩ := mem_entries_iff.mp member
  rw [masked] at matched
  by_cases lists : form = .list
  · subst lists
    obtain ⟨specifier, mine, _, made⟩ := exists_specifier_of_listExport formed matched own
    obtain ⟨name, other⟩ := Specifier.localName_of_ofSpecifier made solid
    exact .inr ⟨other, specifier, mine, name⟩
  · exact .inl ((headingNames_of_ofMatch lists matched own).1.mem_declaredIn formed)

/-- A name that a script is made to import from itself is one that a list exports. -/
theorem exists_specifier_of_mem_injected (formed : isFormed [] parts = true) {script : String}
    (masked : Literal.mask script.toList = textOf parts) {source : String} {types : Bool}
    {name : String}
    (injected : name ∈
      ((Registry.ofEntries (entries script.toList source types)).inject script).injected) :
    name ≠ "default" ∧ name ∉ declaredNames parts ∧
      ∃ specifier ∈ specifiersOf parts, name = specifier.exported.name := by
  rw [Registry.injected_inject] at injected
  have registered := Registry.contains_iff.mp (Registry.contains_of_mem_missingNames injected)
  obtain ⟨used, -, undeclared⟩ := Registry.mem_missingNames.mp injected
  have solid := isBlank_eq_false_of_mem_usedNames used
  rw [declared, masked] at undeclared
  obtain ⟨entry, kept, rfl⟩ := List.mem_map.mp registered
  rcases localName_of_mem_entries formed masked (Registry.mem_of_mem_ofEntries kept) solid with
    bound | ⟨other, listed⟩
  · exact absurd bound undeclared
  · exact ⟨other, fun own => undeclared (mem_declaredIn_of_mem_declaredNames formed own), listed⟩

/-- **A script and its own exports.** Let a script consist of declarations, exported or not, local
export lists over names that it declares, and other code, with no name that starts with a letter
outside ASCII (`Identifier`), and let its exports be registered. All that it can be made to import
from itself are names that a list gives with `as` and that the script does not declare. It stays as
it is if each of those names is declared, or is `default`. -/
theorem inject_own_exports (formed : isFormed [] parts = true)
    (listed : ∀ specifier ∈ specifiersOf parts, specifier.name.name ∈ declaredNames parts)
    {script : String} (masked : Literal.mask script.toList = textOf parts) (source : String)
    (types : Bool) :
    let injection := (Registry.ofEntries (entries script.toList source types)).inject script
    (∀ name ∈ injection.injected, name ≠ "default" ∧ name ∉ declaredNames parts ∧
      ∃ specifier ∈ specifiersOf parts, ∃ outer ∈ specifier.outer?, name = outer.name) ∧
      ((∀ specifier ∈ specifiersOf parts, ∀ outer ∈ specifier.outer?,
        outer.name = "default" ∨ outer.name ∈ declaredNames parts) → injection.code = script) := by
  intro injection
  have renamed : ∀ name ∈ injection.injected, name ≠ "default" ∧ name ∉ declaredNames parts ∧
      ∃ specifier ∈ specifiersOf parts, ∃ outer ∈ specifier.outer?, name = outer.name := by
    intro name injected
    obtain ⟨other, undeclared, specifier, own, rfl⟩ :=
      exists_specifier_of_mem_injected formed masked injected
    refine ⟨other, undeclared, specifier, own, ?_⟩
    cases given : specifier.outer? with
    | some outer => exact ⟨outer, rfl, by rw [Specifier.exported, given, Option.getD_some]⟩
    | none =>
      -- exported under its own name, which the script declares
      rw [Specifier.exported, given] at undeclared
      exact absurd (listed specifier own) undeclared
  refine ⟨renamed, fun bound => ?_⟩
  have none : injection.injected = [] := by
    rw [List.eq_nil_iff_forall_not_mem]
    intro name injected
    obtain ⟨other, undeclared, specifier, own, outer, given, rfl⟩ := renamed name injected
    rcases bound specifier own outer given with same | declared
    · exact other same
    · exact undeclared declared
  rw [Registry.code_inject, if_pos none]

end

/-! ## Scripts that export what they declare -/

def space : Gap :=
  ⟨[' '], by simp, by decide⟩

/-- The heading of a variable. -/
def variableHeading (name : Identifier) : Heading where
  kind := .binding
  word := "const"
  separator := space.text
  name := name
  closing := []
  own := by decide
  separates := space.isGap
  closes := rfl

/-- The heading of a type with parameters. -/
def typeHeading (name : Identifier) (parameters : List Char) (inside : ';' ∉ parameters) :
    Heading where
  kind := .typeAlias
  word := "type"
  separator := space.text
  name := name
  closing := '<' :: (parameters ++ ['>', ' ', '='])
  own := by decide
  separates := space.isGap
  closes := ⟨[], '<' :: (parameters ++ ['>']), [' '], by simp, .inr ⟨parameters, inside, rfl⟩,
    by decide, by simp⟩

/-- The heading of a generator. -/
def generatorHeading (name : Identifier) : Heading where
  kind := .function
  word := "function"
  separator := ['*', ' ']
  name := name
  closing := []
  own := by decide
  separates := .inr ⟨[], [' '], by simp, by decide, rfl⟩
  closes := rfl

def specifierOf (typed : Bool) (name : Identifier) (outer? : Option Identifier) : Slot :=
  .named {
    leading := [' ']
    typed := if typed then some space else none
    name := name
    renamed := outer?.map fun outer => (space, space, outer)
    trailing := []
    padded := by decide }

def url : Identifier := ⟨"url".toList, by decide⟩
def load : Identifier := ⟨"load".toList, by decide⟩
def pair : Identifier := ⟨"Pair".toList, by decide⟩

/-- Comments and strings that speak of exports, types with parameters, a default export, and a list
that gives declared names to something else. -/
def exporting : List Part :=
  [.code "                     \n".toList,
    .declaration (some space) [] (variableHeading url), .code " = '              '\n".toList,
    .declaration none [] (typeHeading pair "A, B".toList (by decide)), .code " [A, B]\n".toList,
    .declaration (some space) [⟨"declare", space, by decide⟩]
      (typeHeading ⟨"Id".toList, by decide⟩ "T".toList (by decide)), .code " T\n".toList,
    .declaration (some space) [⟨"default", space, by decide⟩, ⟨"async", space, by decide⟩]
      (generatorHeading load), .code "() \x7b return url \x7d\n".toList,
    .list space none [specifierOf true pair none, specifierOf false load (some url),
      specifierOf false url (some ⟨"default".toList, by decide⟩), .blank [' '] (by decide)]]

def exportingScript : String :=
  "// export \x7b nothing \x7d\nexport const url = 'export const x'\ntype Pair<A, B> = [A, B]\n" ++
    "export declare type Id<T> = T\nexport default async function* load() \x7b return url \x7d\n" ++
    "export \x7b type Pair, load as url, url as default, \x7d"

theorem inject_own_exports_exporting :
    isFormed [] exporting = true ∧
      (∀ specifier ∈ specifiersOf exporting, specifier.name.name ∈ declaredNames exporting) ∧
      Literal.mask exportingScript.toList = textOf exporting ∧
      (∀ specifier ∈ specifiersOf exporting, ∀ outer ∈ specifier.outer?,
        outer.name = "default" ∨ outer.name ∈ declaredNames exporting) ∧
      ((Registry.ofEntries (entries exportingScript.toList "m" true)).inject exportingScript).code =
        exportingScript := by
  have formed : isFormed [] exporting = true := by decide +kernel
  have listed : ∀ specifier ∈ specifiersOf exporting,
      specifier.name.name ∈ declaredNames exporting := by decide +kernel
  have masked : Literal.mask exportingScript.toList = textOf exporting := by
    rw [Literal.mask_eq_shown]
    decide +kernel
  have bound : ∀ specifier ∈ specifiersOf exporting, ∀ outer ∈ specifier.outer?,
      outer.name = "default" ∨ outer.name ∈ declaredNames exporting := by decide +kernel
  have unchanged := (inject_own_exports formed listed masked "m" true).2 bound
  exact ⟨formed, listed, masked, bound, unchanged⟩

def aliasing : List Part :=
  [.declaration none [] (variableHeading ⟨['b'], by decide⟩), .code " = 2\n".toList,
    .list space none [specifierOf false ⟨['b'], by decide⟩ (some ⟨"renamed".toList, by decide⟩)]]

def aliasingScript : String :=
  "const b = 2\nexport \x7b b as renamed\x7d"

/-- A list takes any name, and a declaration only one that starts with a letter of ASCII. -/
def accentedScript : String :=
  "const é = 1\nexport \x7b é \x7d"

/-- A name that a list gives to something else counts as used and not as declared. So does a name
that starts with a letter outside ASCII, even under its own name. -/
theorem inject_own_exports_aliasing :
    isFormed [] aliasing = true ∧
      (∀ specifier ∈ specifiersOf aliasing, specifier.name.name ∈ declaredNames aliasing) ∧
      Literal.mask aliasingScript.toList = textOf aliasing ∧
      ((Registry.ofEntries (entries aliasingScript.toList "m" true)).inject aliasingScript).code =
        "import \x7b renamed \x7d from 'm'\n" ++ aliasingScript ∧
      Name.isBindable "é".toList = false ∧
      ((Registry.ofEntries (entries accentedScript.toList "m" true)).inject accentedScript).code =
        "import \x7b é \x7d from 'm'\n" ++ accentedScript := by
  refine ⟨?_, ?_, ?_, ?_, ?_, ?_⟩ <;> decide +kernel

end ImportSupply.Export
