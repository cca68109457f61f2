import ImportSupply.Export
import ImportSupply.Proofs.Binding.Found

/-!
# Exported names are declared

Exports and declarations are looked for by two families of patterns. What an export other than a
type or a list names is declared in any text: behind `export`, `declare`, `default` or a modifier no
keyword is left open, so the heading is found as a declaration too.
-/

namespace ImportSupply.Export

open Pattern Binding

/-! ## Headings behind other words -/

/-- A text that ends with one of some words and a gap. -/
def Announces (words : List String) (text : List Char) : Prop :=
  ∃ front, ∃ word ∈ words, ∃ gap, front.getLast?.any Text.isWord = false ∧ IsGap gap ∧
    text = front ++ (word.toList ++ gap)

/-- Words that no keyword of a kind can be mistaken for. -/
def Foreign (kind : Kind) (words : List String) : Prop :=
  ∀ word ∈ words, word ∉ kind.words ∧ word.toList ≠ [] ∧ ∀ c ∈ word.toList, Text.isWord c = true

instance (kind : Kind) (words : List String) : Decidable (Foreign kind words) :=
  inferInstanceAs (Decidable (∀ word ∈ words, _))

section

variable {words : List String} {front : List Char}

theorem getLast?_append_gap {gap : List Char} (isGap : IsGap gap) (front : List Char)
    {accept : Char → Bool} (outside : ∀ {c}, Text.isBlank c = true → accept c = false) :
    (front ++ gap).getLast?.any accept = false := by
  rw [List.getLast?_append_of_ne_nil _ isGap.1, List.getLast?_eq_some_getLast isGap.1,
    Option.any_some]
  exact outside (isGap.2 _ (List.getLast_mem isGap.1))

theorem Announces.getLast? (announces : Announces words front) :
    front.getLast?.any Name.isTail = false := by
  obtain ⟨front, word, -, gap, -, isGap, rfl⟩ := announces
  rw [← List.append_assoc]
  exact getLast?_append_gap isGap _ Name.isTail_eq_false_of_isBlank

theorem Announces.mono {more : List String} (announces : Announces words front)
    (subset : words ⊆ more) : Announces more front := by
  obtain ⟨front, word, member, rest⟩ := announces
  exact ⟨front, word, subset member, rest⟩

theorem announces_of_edge (edge : front.getLast?.any Text.isWord = false) (word : String)
    {gap : List Char} (isGap : IsGap gap) : Announces [word] (front ++ (word.toList ++ gap)) :=
  ⟨front, word, List.mem_singleton.mpr rfl, gap, edge, isGap, rfl⟩

/-- One more word takes the place of the earlier one. -/
theorem Announces.append (announces : Announces words front) (word : String) {gap : List Char}
    (isGap : IsGap gap) : Announces [word] (front ++ (word.toList ++ gap)) :=
  announces_of_edge (Kind.isWord_eq_false_of_edge announces.getLast?) word isGap

theorem Announces.append_optional (announces : Announces words front) {more : List String}
    {piece : List Char}
    (optional : piece = [] ∨ ∃ word ∈ more, ∃ gap, IsGap gap ∧ piece = word.toList ++ gap) :
    Announces (more ++ words) (front ++ piece) := by
  rcases optional with rfl | ⟨word, own, gap, isGap, rfl⟩
  · rw [List.append_nil]
    exact announces.mono (List.subset_append_right _ _)
  · exact (announces.append word isGap).mono (by simp [own])

/-- Behind words that are no keywords of its kind a heading is found. -/
theorem Announces.mem_declaredIn (announces : Announces words front) {kind : Kind}
    (value : kind ≠ .typeAlias)
    (foreign : Foreign kind words) {named back : List Char} (heads : kind.Heads named back) :
    String.ofList named ∈ declaredIn (front ++ back) := by
  have closed : kind.isOpen front = false := by
    obtain ⟨front, word, member, gap, edge, isGap, rfl⟩ := announces
    obtain ⟨other, nonempty, inside⟩ := foreign word member
    have past : ∀ c ∈ word.toList, kind.isSeparator c = false := fun c own =>
      Kind.isSeparator_eq_false_of_isTail (by simp [Name.isTail, inside c own])
    have gaps : ∀ c ∈ gap, kind.isSeparator c = true := by
      intro c own
      cases kind <;> simp [Kind.isSeparator, isGap.2 c own]
    have distinct : ∀ keyword ∈ kind.words, keyword.toList ≠ word.toList := by
      intro keyword own same
      exact other (String.toList_inj.mp same ▸ own)
    rw [Kind.isOpen, lastWord_append nonempty inside past gaps edge]
    simpa [value] using distinct
  exact Kind.mem_declaredIn_of_mem_namesOf (heads.mem_namesOf announces.getLast? closed)

theorem Announces.mem_declaredIn_of_opens (announces : Announces words front) {kind : Kind}
    (value : kind ≠ .typeAlias) (foreign : Foreign kind (kind.modifiers ++ words))
    {opening named rest : List Char} (opens : kind.Opens opening (named ++ rest))
    (bindable : Name.isBindable named = true) (stops : rest.head?.any Name.isTail = false) :
    String.ofList named ∈ declaredIn (front ++ (opening ++ (named ++ rest))) := by
  obtain ⟨-, modifier, word, keyword, separator, modifies, separates, rfl⟩ := opens
  have heads : kind.Heads named (word.toList ++ (separator ++ (named ++ rest))) := by
    refine ⟨word, keyword, separator, [], rest, separates, bindable, stops, ?_, rfl⟩
    cases kind with
    | typeAlias => exact absurd rfl value
    | _ => rfl
  have declared := (announces.append_optional modifies).mem_declaredIn value foreign heads
  simpa using declared

end

/-! ## Exports with a name -/

/-- The start of an exported declaration, before a text. -/
def Starts (piece rest : List Char) : Prop :=
  ∃ gap tail, IsGap gap ∧ (tail ++ rest).head?.any Text.isBlank = false ∧
    (tail = [] ∨ ∃ gap', IsGap gap' ∧ rest.head?.any Text.isBlank = false ∧
      tail = "declare".toList ++ gap') ∧ piece = "export".toList ++ (gap ++ tail)

theorem passes_start : Passes (all [text "export", gap, maybeWord "declare"]) Starts := by
  have passes := (passes_text "export").all_cons (passes_gap.all_cons
    ((passes_maybeWord "declare").all_cons passes_all_nil))
  refine passes.congr fun piece rest => ?_
  constructor
  · rintro ⟨_, _, rfl, rfl, gap, _, rfl, ⟨isGap, stops⟩, tail, _, rfl, declares, rfl⟩
    refine ⟨gap, tail, isGap, by simpa using stops, ?_, by simp⟩
    rcases declares with ⟨gap', rfl, isGap', stops'⟩ | rfl
    · exact .inr ⟨gap', isGap', by simpa using stops', rfl⟩
    · exact .inl rfl
  · rintro ⟨gap, tail, isGap, stops, declares, rfl⟩
    refine ⟨_, gap ++ tail, rfl, rfl, gap, tail, rfl, ⟨isGap, stops⟩, tail, [], by simp, ?_, rfl⟩
    rcases declares with rfl | ⟨gap', isGap', stops', rfl⟩
    · exact .inr rfl
    · exact .inl ⟨gap', rfl, isGap', by simpa using stops'⟩

theorem Starts.announces {lead rest front : List Char} (starts : Starts lead rest)
    (edge : front.getLast?.any Text.isWord = false) :
    Announces ["export", "declare"] (front ++ lead) := by
  obtain ⟨gap, tail, isGap, -, declares, rfl⟩ := starts
  have exported := announces_of_edge edge "export" isGap
  rcases declares with rfl | ⟨gap', isGap', -, rfl⟩
  · rw [List.append_nil]
    exact exported.mono (by simp)
  · have declared := exported.append "declare" isGap'
    simp only [List.append_assoc] at declared
    exact declared.mono (by simp)

/-- The pattern of an exported declaration: its start, maybe one more word, the heading up to the
name, and what stands behind it. -/
def exportOf (modifier : Option String) (kind : Kind) (closing : List (Pattern Char)) :
    Pattern Char :=
  all (declarationStart ::
    ((modifier.map maybeWord).toList ++ (kind.opening ++ group 1 name :: closing)))

theorem variableExport_eq : variableExport = exportOf none .binding [] :=
  rfl

theorem functionExport_eq : functionExport = exportOf none .function [] :=
  rfl

theorem classExport_eq : classExport = exportOf none .objectClass [] :=
  rfl

theorem interfaceExport_eq : interfaceExport = exportOf none .interface [] :=
  rfl

theorem enumExport_eq : enumExport = exportOf (some "const") .enumeration [] :=
  rfl

theorem typeExport_eq : typeExport = exportOf none .typeAlias
    [blanks, maybe (all [text "<", many (· != '>'), text ">", blanks]), text "="] :=
  rfl

theorem passes_modifier (modifier : Option String) :
    Passes (all (modifier.map maybeWord).toList) fun piece rest =>
      piece = [] ∨ ∃ word ∈ modifier.toList, ∃ gap, IsGap gap ∧
        rest.head?.any Text.isBlank = false ∧ piece = word.toList ++ gap := by
  cases modifier with
  | none => exact passes_all_nil.congr fun piece rest => by simp
  | some word =>
    refine (passes_maybeWord word).congr fun piece rest => ?_
    constructor
    · rintro (⟨gap, rfl, isGap, stops⟩ | rfl)
      · exact .inr ⟨word, List.mem_singleton.mpr rfl, gap, isGap, stops, rfl⟩
      · exact .inl rfl
    · rintro (rfl | ⟨own, same, gap, isGap, stops, rfl⟩)
      · exact .inr rfl
      · obtain rfl := List.mem_singleton.mp same
        exact .inl ⟨gap, rfl, isGap, stops⟩

theorem spells_exportOf {modifier : Option String} {kind : Kind} {closing : List (Pattern Char)}
    {before : Option Char} {piece rest : List Char} {captures : List (Capture Char)} :
    (exportOf modifier kind closing).Spells before piece rest captures ↔
      (all ([wordEdge, text "export", gap] ++ (maybeWord "declare" ::
        ((modifier.map maybeWord).toList ++ (kind.opening ++ group 1 name :: closing))))).Spells
          before piece rest captures := by
  rw [exportOf, declarationStart, spells_all_all]
  rfl

theorem exists_of_spells_exportOf {modifier : Option String} {kind : Kind}
    {closing : List (Pattern Char)} {closes : List Char → List Char → Prop}
    (passes : Passes (all closing) closes) {before : Option Char} {piece rest : List Char}
    {captures : List (Capture Char)}
    (spells : (exportOf modifier kind closing).Spells before piece rest captures) :
    ∃ lead middle opening named back, piece = lead ++ (middle ++ (opening ++ (named ++ back))) ∧
      before.any Text.isWord = false ∧
      Starts lead (middle ++ (opening ++ (named ++ (back ++ rest)))) ∧
      (middle = [] ∨ ∃ word ∈ modifier.toList, ∃ gap, IsGap gap ∧ middle = word.toList ++ gap) ∧
      kind.Opens opening (named ++ (back ++ rest)) ∧ Name.isBindable named = true ∧
      (back ++ rest).head?.any Name.isTail = false ∧ closes back rest ∧
      captures = [⟨1, named ++ (back ++ rest), named.length⟩] := by
  have parts : [wordEdge, text "export", gap] ++ (maybeWord "declare" ::
      ((modifier.map maybeWord).toList ++ (kind.opening ++ group 1 name :: closing))) =
      wordEdge :: ([text "export", gap, maybeWord "declare"] ++
        ((modifier.map maybeWord).toList ++ kind.opening) ++ group 1 name :: closing) := by
    simp
  rw [spells_exportOf, parts] at spells
  obtain ⟨_, named, back, rfl, edge, ⟨lead, _, rfl, starts, middle, opening, rfl, modifies, opens⟩,
    bindable, stops, closes, rfl⟩ := (spells_naming (passes_start.all_append
      ((passes_modifier modifier).all_append kind.passes_opening)) passes).mp spells
  refine ⟨lead, middle, opening, named, back, by simp, ?_, by simpa using starts, ?_, opens,
    bindable, stops, closes, rfl⟩
  · obtain ⟨gap, tail, -, -, -, rfl⟩ := starts
    have inside : Text.isWord 'e' = true := by decide
    simpa [inside] using edge
  · rcases modifies with rfl | ⟨word, own, gap, isGap, -, rfl⟩
    · exact .inl rfl
    · exact .inr ⟨word, own, gap, isGap, rfl⟩

/-- What an export of a value or an interface names is declared. -/
theorem mem_declaredIn_of_exportOf {modifier : Option String} {kind : Kind}
    (value : kind ≠ .typeAlias)
    (foreign : Foreign kind (kind.modifiers ++ (modifier.toList ++ ["export", "declare"])))
    {text named : List Char} {found : Match Char}
    (member : found ∈ (exportOf modifier kind []).allMatches text)
    (piece : found.piece? 1 = some named) : String.ofList named ∈ declaredIn text := by
  obtain ⟨front, _, rest, _, rfl, spells, rfl⟩ := exists_spells_of_mem_allMatches member
  obtain ⟨lead, middle, opening, name, back, rfl, edge, starts, modifies, opens, bindable, stops,
    rfl, rfl⟩ := exists_of_spells_exportOf passes_all_nil spells
  obtain rfl : name = named := by simpa [Match.piece?, Capture.piece] using piece
  have exported := starts.announces (by simpa [lastOf] using edge : front.getLast?.any _ = false)
  have declared := (exported.append_optional modifies).mem_declaredIn_of_opens value foreign opens
    bindable stops
  simpa using declared

/-- The function or class of a default export, with the gap behind it. -/
theorem exists_passes_defaultOpening :
    ∃ passed, Passes (all [either (all [maybeWord "async", text "function",
      maybe (all [blanks, text "*"])]) (all [maybeWord "abstract", text "class"]), gap]) passed ∧
        ∀ piece rest, passed piece rest →
          Kind.function.Opens piece rest ∨ Kind.objectClass.Opens piece rest := by
  have star := (passes_blanks.all_cons ((passes_text "*").all_cons passes_all_nil)).maybe
  have function := (passes_maybeWord "async").all_cons
    ((passes_text "function").all_cons (star.all_cons passes_all_nil))
  have objectClass := (passes_maybeWord "abstract").all_cons
    ((passes_text "class").all_cons passes_all_nil)
  refine ⟨_, (function.either objectClass).all_cons (passes_gap.all_cons passes_all_nil), ?_⟩
  rintro _ rest ⟨_, _, rfl, isBranch, gap, _, rfl, ⟨isGap, stops⟩, rfl⟩
  rcases isBranch with ⟨modifier, _, rfl, modifies, _, _, rfl, rfl, star, _, rfl, isStar, rfl⟩ |
    ⟨modifier, _, rfl, modifies, _, _, rfl, rfl, rfl⟩
  · left
    refine ⟨by simpa using stops, modifier, "function", List.mem_singleton.mpr rfl, star ++ gap,
      Kind.modifies_of_maybeWord (List.mem_singleton.mpr rfl) modifies, ?_, by simp⟩
    rcases isStar with ⟨pad, _, rfl, ⟨padded, -⟩, _, _, rfl, rfl, rfl⟩ | rfl
    · exact .inr ⟨pad, gap, padded, isGap.2, by simp⟩
    · exact .inl isGap.2
  · right
    exact ⟨by simpa using stops, modifier, "class", List.mem_singleton.mpr rfl, gap,
      Kind.modifies_of_maybeWord (List.mem_singleton.mpr rfl) modifies, isGap, by simp⟩

/-- What a named default export names is declared. -/
theorem mem_declaredIn_of_defaultExport {text named : List Char} {found : Match Char}
    (member : found ∈ defaultExport.allMatches text) (piece : found.piece? 1 = some named) :
    String.ofList named ∈ declaredIn text := by
  obtain ⟨passed, default_passes, opens_of_passed⟩ := exists_passes_defaultOpening
  have passes := (passes_text "export").all_cons (passes_gap.all_cons
    ((passes_text "default").all_cons (passes_gap.all_cons default_passes)))
  obtain ⟨front, _, rest, _, rfl, spells, rfl⟩ := exists_spells_of_mem_allMatches member
  obtain ⟨_, name, _, rfl, edge, ⟨_, _, rfl, rfl, gap, _, rfl, ⟨isGap, -⟩, _, _, rfl, rfl, gap',
    opening, rfl, ⟨isGap', -⟩, opens⟩, bindable, stops, rfl, rfl⟩ :=
    (spells_naming passes passes_all_nil).mp spells
  obtain rfl : name = named := by simpa [Match.piece?, Capture.piece] using piece
  have front_edge : front.getLast?.any Text.isWord = false := by
    have inside : Text.isWord 'e' = true := by decide
    simpa [lastOf, inside] using edge
  have announces := (announces_of_edge front_edge "export" isGap).append "default" isGap'
  rcases opens_of_passed _ _ opens with opens | opens
  · simpa using announces.mem_declaredIn_of_opens (by decide) (by decide) opens bindable stops
  · simpa using announces.mem_declaredIn_of_opens (by decide) (by decide) opens bindable stops

end ImportSupply.Export
