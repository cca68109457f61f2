import ImportSupply.Proofs.Export.Keywords
import Mathlib.Data.List.Sublists

/-!
# Reading exports of one name

The pattern of a form passes, behind the word `export`, keywords of that form
(`Form.Opens.exists_keyed`), a name, and for a type what stands up to its equals sign
(`Form.spells_iff`).
-/

namespace ImportSupply.Export

open Pattern Literal

/-! ## Words that may stand in front of others -/

/-- Some of a list of words, in their order and each with a gap, in front of a text. -/
def Leads : List Keyword → List Char → List Char → Prop
  | [], piece, _ => piece = []
  | keyword :: keywords, piece, rest =>
      ∃ first second, piece = first ++ second ∧
        ((∃ gap, first = keyword.word.toList ++ gap ∧ IsGap gap ∧
          (second ++ rest).head?.any Text.isBlank = false) ∨ first = []) ∧
        Leads keywords second rest

theorem passes_leads (keywords : List Keyword) :
    Passes (all (keywords.map fun keyword => maybeWord keyword.word)) (Leads keywords) := by
  induction keywords with
  | nil => exact passes_all_nil
  | cons keyword keywords ih => exact (passes_maybeWord keyword.word).all_cons ih

theorem Leads.exists_keyed {keywords : List Keyword} {piece rest : List Char}
    (leads : Leads keywords piece rest) (stops : rest.head?.any isSeparator = false) :
    ∃ taken, taken.Sublist keywords ∧ Keyed taken piece rest := by
  induction keywords generalizing piece with
  | nil =>
    obtain rfl : piece = [] := leads
    exact ⟨[], .slnil, .nil⟩
  | cons keyword keywords ih =>
    obtain ⟨first, second, rfl, isFirst, later⟩ := leads
    obtain ⟨taken, sublist, keyed⟩ := ih later
    rcases isFirst with ⟨gap, rfl, isGap, -⟩ | rfl
    · refine ⟨keyword :: taken, sublist.cons_cons keyword, ?_⟩
      rw [List.append_assoc]
      exact keyed.cons_gap keyword isGap stops
    · exact ⟨taken, sublist.cons keyword, keyed⟩

/-! ## What stands between `export` and the name -/

theorem Keyed.append {keywords others : List Keyword} {opening opening' core : List Char}
    (first : Keyed keywords opening (opening' ++ core)) (second : Keyed others opening' core) :
    Keyed (keywords ++ others) (opening ++ opening') core := by
  generalize whole : opening' ++ core = middle at first
  induction first with
  | nil => exact second
  | cons separates spaced stops _ ih =>
    rw [List.cons_append, List.append_assoc, List.append_assoc]
    refine .cons separates spaced ?_ (ih whole)
    rwa [List.append_assoc, whole]

/-- The keywords that the opening of a kind passes. -/
def kindKeywords : Binding.Kind → List (List Keyword)
  | .binding => [[.const], [.letWord], [.var]]
  | .function => [[.function], [.async, .function]]
  | .objectClass => [[.objectClass], [.abstract, .objectClass]]
  | .enumeration => [[.enumeration]]
  | .typeAlias => [[.typeAlias]]
  | .interface => [[.interface]]

theorem exists_keyword_of_mem_words {kind : Binding.Kind} {word : String}
    (known : word ∈ kind.words) :
    ∃ keyword : Keyword, keyword.word = word ∧ [keyword] ∈ kindKeywords kind ∧
      (keyword ≠ .function → kind ≠ .function) := by
  cases kind with
  | binding =>
    simp only [Binding.Kind.words, List.mem_cons, List.not_mem_nil, or_false] at known
    rcases known with rfl | rfl | rfl
    · exact ⟨.const, rfl, by decide, by decide⟩
    · exact ⟨.letWord, rfl, by decide, by decide⟩
    · exact ⟨.var, rfl, by decide, by decide⟩
  | function => exact ⟨.function, (List.mem_singleton.mp known).symm, by decide, by decide⟩
  | objectClass => exact ⟨.objectClass, (List.mem_singleton.mp known).symm, by decide, by decide⟩
  | enumeration => exact ⟨.enumeration, (List.mem_singleton.mp known).symm, by decide, by decide⟩
  | typeAlias => exact ⟨.typeAlias, (List.mem_singleton.mp known).symm, by decide, by decide⟩
  | interface => exact ⟨.interface, (List.mem_singleton.mp known).symm, by decide, by decide⟩

theorem exists_keyword_of_mem_modifiers {kind : Binding.Kind} {word : String}
    (own : word ∈ kind.modifiers) :
    ∃ keyword : Keyword, keyword.word = word ∧
      ∀ last, [last] ∈ kindKeywords kind → [keyword, last] ∈ kindKeywords kind := by
  cases kind with
  | function =>
    refine ⟨.async, (List.mem_singleton.mp own).symm, fun last known => ?_⟩
    simpa [kindKeywords] using known
  | objectClass =>
    refine ⟨.abstract, (List.mem_singleton.mp own).symm, fun last known => ?_⟩
    simpa [kindKeywords] using known
  | binding | enumeration | typeAlias | interface => cases own

theorem isSeparator_of_separates {kind : Binding.Kind} {separator : List Char}
    (separates : kind.Separates separator) : ∀ c ∈ separator, isSeparator c = true := by
  intro c member
  have own := Binding.Kind.isSeparator_of_separates separates c member
  cases kind with
  | function => exact own
  | binding | objectClass | enumeration | typeAlias | interface => exact isSeparator_of_isBlank own

theorem exists_keyed_of_kind {kind : Binding.Kind} {piece rest : List Char}
    (opens : kind.Opens piece rest) (stops : rest.head?.any isSeparator = false) :
    ∃ keywords ∈ kindKeywords kind, Keyed keywords piece rest := by
  obtain ⟨-, modifier, word, known, separator, modifies, separates, rfl⟩ := opens
  obtain ⟨keyword, rfl, own, other⟩ := exists_keyword_of_mem_words known
  have spaced : keyword ≠ .function → separator ≠ [] := by
    intro isOther
    have isKind := other isOther
    cases kind with
    | function => exact absurd rfl isKind
    | binding | objectClass | enumeration | typeAlias | interface => exact separates.1
  have last : Keyed [keyword] (keyword.word.toList ++ separator) rest := by
    have single : Keyed [keyword] (keyword.word.toList ++ (separator ++ [])) rest :=
      .cons (isSeparator_of_separates separates) spaced stops .nil
    rwa [List.append_nil] at single
  rcases modifies with rfl | ⟨word, modifies, gap, isGap, rfl⟩
  · exact ⟨[keyword], own, last⟩
  · obtain ⟨first, rfl, both⟩ := exists_keyword_of_mem_modifiers modifies
    refine ⟨[first, keyword], both keyword own, ?_⟩
    rw [List.append_assoc]
    exact last.cons_gap first isGap stops

namespace Form

/-- The words that a declaration can have in front of those of its kind. -/
def leads : Binding.Kind → List Keyword
  | .enumeration => [.declare, .const]
  | _ => [.declare]

/-- The pattern of a form. -/
def pattern : Form → Pattern Char
  | declared .binding => variableExport
  | declared .function => functionExport
  | declared .objectClass => classExport
  | declared .enumeration => enumExport
  | declared .typeAlias => typeExport
  | declared .interface => interfaceExport
  | default => defaultExport
  | list => listExport

/-- The part of a pattern between `export` and the name. -/
def opening : Form → List (Pattern Char)
  | declared kind => (leads kind).map (fun keyword => maybeWord keyword.word) ++ kind.opening
  | default =>
      [text "default", gap,
        either (all [maybeWord "async", text "function", maybe (all [blanks, text "*"])])
          (all [maybeWord "abstract", text "class"]), gap]
  | list => []

/-- The part of a pattern behind the name. -/
def closing : Form → List (Pattern Char)
  | declared .typeAlias =>
      [blanks, maybe (all [text "<", many (· != '>'), text ">", blanks]), text "="]
  | _ => []

/-- The word that a pattern accepts between `declare` and the opening of a kind. -/
def modifier : Binding.Kind → Option String
  | .enumeration => some "const"
  | _ => none

theorem pattern_declared (kind : Binding.Kind) :
    pattern (declared kind) = exportOf (modifier kind) kind (closing (declared kind)) := by
  cases kind <;> rfl

theorem spells_pattern {form : Form} (names : form ≠ .list) {before : Option Char}
    {piece rest : List Char} {captures : List (Capture Char)} :
    form.pattern.Spells before piece rest captures ↔
      (all (wordEdge :: (text "export" :: gap :: form.opening ++
        group 1 name :: form.closing))).Spells before piece rest captures := by
  cases form with
  | declared kind =>
    have parts : [wordEdge, text "export", gap] ++ (maybeWord "declare" ::
        ((modifier kind).map maybeWord).toList ++ (kind.opening ++
          group 1 name :: closing (declared kind))) =
        wordEdge :: (text "export" :: gap :: opening (declared kind) ++
          group 1 name :: closing (declared kind)) := by
      cases kind <;> rfl
    rw [pattern_declared, spells_exportOf, ← parts]
    rfl
  | default => exact .rfl
  | list => exact absurd rfl names

end Form

/-- A keyword and a gap behind it, or nothing. -/
def Optional (keyword : Keyword) (piece : List Char) : Prop :=
  piece = [] ∨ ∃ gap, IsGap gap ∧ piece = keyword.word.toList ++ gap

theorem optional_iff {keyword : Keyword} {piece rest : List Char}
    (stops : rest.head?.any Text.isBlank = false) :
    (∃ gap, piece = keyword.word.toList ++ gap ∧ IsGap gap ∧
      rest.head?.any Text.isBlank = false) ∨ piece = [] ↔ Optional keyword piece := by
  constructor
  · rintro (⟨gap, rfl, isGap, -⟩ | rfl)
    · exact .inr ⟨gap, isGap, rfl⟩
    · exact .inl rfl
  · rintro (rfl | ⟨gap, isGap, rfl⟩)
    · exact .inr rfl
    · exact .inl ⟨gap, rfl, isGap, stops⟩

/-- The star of a generator and the blanks in front of it, or nothing. -/
def OptionalStar (piece : List Char) : Prop :=
  piece = [] ∨ ∃ pad, (∀ c ∈ pad, Text.isBlank c = true) ∧ piece = pad ++ ['*']

/-- What the pattern of a default export passes up to the name. -/
def DefaultOpens (piece rest : List Char) : Prop :=
  ∃ gap branch gap', IsGap gap ∧ IsGap gap' ∧ rest.head?.any Text.isBlank = false ∧
    ((∃ lead star, Optional .async lead ∧ OptionalStar star ∧
        branch = lead ++ ("function".toList ++ star)) ∨
      ∃ lead, Optional .abstract lead ∧ branch = lead ++ "class".toList) ∧
    piece = "default".toList ++ (gap ++ (branch ++ gap'))

theorem passes_optionalStar :
    Passes (maybe (all [blanks, text "*"])) fun piece _ => OptionalStar piece := by
  have star := (passes_blanks.all_cons ((passes_text "*").all_cons passes_all_nil)).maybe
  refine star.congr fun piece rest => ?_
  constructor
  · rintro (⟨pad, _, rfl, ⟨padded, -⟩, _, _, rfl, rfl, rfl⟩ | rfl)
    · exact .inr ⟨pad, padded, by simp⟩
    · exact .inl rfl
  · rintro (rfl | ⟨pad, padded, rfl⟩)
    · exact .inr rfl
    · exact .inl ⟨pad, ['*'], rfl, ⟨padded, rfl⟩, ['*'], [], rfl, rfl, rfl⟩

theorem passes_functionBranch :
    Passes (all [maybeWord "async", text "function", maybe (all [blanks, text "*"])])
      fun piece _ => ∃ lead star, Optional .async lead ∧ OptionalStar star ∧
        piece = lead ++ ("function".toList ++ star) := by
  have passes := (passes_maybeWord "async").all_cons
    ((passes_text "function").all_cons (passes_optionalStar.all_cons passes_all_nil))
  refine passes.congr fun piece rest => ?_
  constructor
  · rintro ⟨lead, _, rfl, isLead, _, _, rfl, rfl, star, _, rfl, isStar, rfl⟩
    exact ⟨lead, star, (optional_iff rfl).mp isLead, isStar, by simp⟩
  · rintro ⟨lead, star, isLead, isStar, rfl⟩
    exact ⟨lead, _, rfl, (optional_iff rfl).mpr isLead, _, star, rfl, rfl, star, [], by simp,
      isStar, rfl⟩

theorem passes_classBranch :
    Passes (all [maybeWord "abstract", text "class"]) fun piece _ =>
      ∃ lead, Optional .abstract lead ∧ piece = lead ++ "class".toList := by
  have passes := (passes_maybeWord "abstract").all_cons
    ((passes_text "class").all_cons passes_all_nil)
  refine passes.congr fun piece rest => ?_
  constructor
  · rintro ⟨lead, _, rfl, isLead, _, _, rfl, rfl, rfl⟩
    exact ⟨lead, (optional_iff rfl).mp isLead, by simp⟩
  · rintro ⟨lead, isLead, rfl⟩
    exact ⟨lead, _, rfl, (optional_iff rfl).mpr isLead, _, [], by simp, rfl, rfl⟩

theorem passes_defaultOpening : Passes (all (Form.opening .default)) DefaultOpens := by
  have passes := (passes_text "default").all_cons (passes_gap.all_cons
    ((passes_functionBranch.either passes_classBranch).all_cons
      (passes_gap.all_cons passes_all_nil)))
  refine passes.congr fun piece rest => ?_
  constructor
  · rintro ⟨_, _, rfl, rfl, gap, _, rfl, ⟨isGap, -⟩, branch, _, rfl, isBranch, gap', _, rfl,
      ⟨isGap', stops⟩, rfl⟩
    exact ⟨gap, branch, gap', isGap, isGap', by simpa using stops, isBranch, by simp⟩
  · rintro ⟨gap, branch, gap', isGap, isGap', stops, isBranch, rfl⟩
    refine ⟨_, _, rfl, rfl, gap, _, rfl, ⟨isGap, ?_⟩, branch, gap', rfl, isBranch, gap', [],
      by simp, ⟨isGap', stops⟩, rfl⟩
    rcases isBranch with ⟨_, star, rfl | ⟨_, -, rfl⟩, -, rfl⟩ | ⟨_, rfl | ⟨_, -, rfl⟩, rfl⟩ <;> rfl

/-- What the pattern of a form passes between `export` and the name. -/
def Form.Opens : Form → List Char → List Char → Prop
  | declared kind => Joined (Leads (leads kind)) kind.Opens
  | default => DefaultOpens
  | list => fun piece _ => piece = []

theorem Form.passes_opening (form : Form) : Passes (all form.opening) form.Opens := by
  cases form with
  | declared kind => exact (passes_leads (leads kind)).all_append kind.passes_opening
  | default => exact passes_defaultOpening
  | list => exact passes_all_nil

theorem head?_isSeparator_of_isBindable {named : List Char} (bindable : Name.isBindable named = true)
    (rest : List Char) : (named ++ rest).head?.any isSeparator = false := by
  obtain ⟨⟨c, tail, rfl, head⟩, -⟩ := Name.isBindable_iff.mp bindable
  by_contra separates
  have outside := isTail_eq_false_of_isSeparator (by simpa using separates : isSeparator c = true)
  rw [Name.isTail_of_isHead head] at outside
  cases outside

section

variable {piece rest : List Char}

theorem Optional.exists_keyed {keyword : Keyword} {lead opening core : List Char}
    (isLead : Optional keyword lead) {keywords : List Keyword}
    (keyed : Keyed keywords opening core) (stops : core.head?.any isSeparator = false) :
    ∃ taken ∈ [keywords, keyword :: keywords], Keyed taken (lead ++ opening) core := by
  rcases isLead with rfl | ⟨gap, isGap, rfl⟩
  · exact ⟨keywords, by simp, keyed⟩
  · rw [List.append_assoc]
    exact ⟨keyword :: keywords, by simp, keyed.cons_gap keyword isGap stops⟩

theorem DefaultOpens.exists_keyed (opens : DefaultOpens piece rest)
    (stops : rest.head?.any isSeparator = false) :
    ∃ keywords ∈ Form.keywords .default, Keyed keywords piece rest := by
  obtain ⟨gap, branch, gap', isGap, isGap', -, isBranch, rfl⟩ := opens
  have blank : ∀ c ∈ gap', isSeparator c = true := fun c member =>
    isSeparator_of_isBlank (isGap'.2 c member)
  -- a function may have its name behind a star, a class only behind a gap
  rcases isBranch with ⟨lead, star, isLead, isStar, rfl⟩ | ⟨lead, isLead, rfl⟩
  · have separates : ∀ c ∈ star ++ gap', isSeparator c = true := by
      rw [List.forall_mem_append]
      refine ⟨?_, blank⟩
      rcases isStar with rfl | ⟨pad, padded, rfl⟩
      · simp
      · rw [List.forall_mem_append]
        exact ⟨fun c member => isSeparator_of_isBlank (padded c member), by decide⟩
    have last : Keyed [.function] ("function".toList ++ ((star ++ gap') ++ [])) rest :=
      .cons separates (fun other => absurd rfl other) stops .nil
    obtain ⟨taken, member, keyed⟩ := isLead.exists_keyed last stops
    refine ⟨.default :: taken, ?_, ?_⟩
    · simp only [List.mem_cons, List.not_mem_nil, or_false] at member
      rcases member with rfl | rfl <;> decide
    · simpa [Keyword.word] using keyed.cons_gap .default isGap stops
  · have last : Keyed [.objectClass] ("class".toList ++ (gap' ++ [])) rest :=
      Keyed.nil.cons_gap .objectClass isGap' stops
    obtain ⟨taken, member, keyed⟩ := isLead.exists_keyed last stops
    refine ⟨.default :: taken, ?_, ?_⟩
    · simp only [List.mem_cons, List.not_mem_nil, or_false] at member
      rcases member with rfl | rfl <;> decide
    · simpa [Keyword.word] using keyed.cons_gap .default isGap stops

/-- What a pattern passes up to the name are keywords of its form. -/
theorem Form.Opens.exists_keyed {form : Form} (names : form ≠ .list)
    (opens : form.Opens piece rest) (stops : rest.head?.any isSeparator = false) :
    ∃ keywords ∈ form.keywords, Keyed keywords piece rest := by
  cases form with
  | declared kind =>
    obtain ⟨lead, opening, rfl, isLead, isOpening⟩ := opens
    obtain ⟨others, known, second⟩ := exists_keyed_of_kind isOpening stops
    obtain ⟨taken, sublist, first⟩ := isLead.exists_keyed (second.head? stops)
    refine ⟨taken ++ others, ?_, first.append second⟩
    have all : ∀ taken ∈ (leads kind).sublists, ∀ others ∈ kindKeywords kind,
        taken ++ others ∈ (declared kind).keywords := by
      cases kind <;> decide
    exact all taken (List.mem_sublists.mpr sublist) others known
  | default => exact DefaultOpens.exists_keyed opens stops
  | list => exact absurd rfl names

end

/-! ## What stands behind the name -/

/-- What the pattern of a form passes behind the name: for a type its parameters and the equals
sign. -/
def Form.Closes : Form → List Char → List Char → Prop
  | declared .typeAlias => fun piece _ =>
      ∃ pad parameters, (∀ c ∈ pad, Text.isBlank c = true) ∧
        (parameters = [] ∨ ∃ inner pad', (∀ c ∈ inner, (c != '>') = true) ∧
          (∀ c ∈ pad', Text.isBlank c = true) ∧ parameters = '<' :: (inner ++ '>' :: pad')) ∧
        piece = pad ++ (parameters ++ ['='])
  | _ => fun piece _ => piece = []

theorem passes_typeClosing :
    Passes (all (Form.closing (.declared .typeAlias))) (Form.Closes (.declared .typeAlias)) := by
  have many_passes : Passes (many (· != '>')) fun piece rest =>
      (∀ c ∈ piece, (c != '>') = true) ∧ rest.head?.any (· != '>') = false :=
    fun _ _ _ _ => by simp only [Spells, and_assoc]
  have parameters := ((passes_text "<").all_cons (many_passes.all_cons
    ((passes_text ">").all_cons (passes_blanks.all_cons passes_all_nil)))).maybe
  have passes := passes_blanks.all_cons (parameters.all_cons
    ((passes_text "=").all_cons passes_all_nil))
  refine passes.congr fun piece rest => ?_
  constructor
  · rintro ⟨pad, _, rfl, ⟨padded, -⟩, given, _, rfl, isGiven, _, _, rfl, rfl, rfl⟩
    refine ⟨pad, given, padded, ?_, rfl⟩
    rcases isGiven with ⟨_, _, rfl, rfl, inner, _, rfl, ⟨inside, -⟩, _, _, rfl, rfl, pad', _, rfl,
      ⟨padded', -⟩, rfl⟩ | rfl
    · exact .inr ⟨inner, pad', inside, padded', by simp⟩
    · exact .inl rfl
  · rintro ⟨pad, given, padded, isGiven, rfl⟩
    refine ⟨pad, _, rfl, ⟨padded, ?_⟩, given, ['='], rfl, ?_, ['='], [], rfl, rfl, rfl⟩
    · rcases isGiven with rfl | ⟨inner, pad', -, -, rfl⟩ <;> rfl
    · rcases isGiven with rfl | ⟨inner, pad', inside, padded', rfl⟩
      · exact .inr rfl
      · exact .inl ⟨['<'], _, rfl, rfl, inner, _, rfl, ⟨inside, rfl⟩, ['>'], pad', rfl, rfl, pad',
          [], by simp, ⟨padded', rfl⟩, rfl⟩

theorem Form.passes_closing (form : Form) : Passes (all form.closing) form.Closes := by
  rcases form with kind | _ | _
  · cases kind with
    | typeAlias => exact passes_typeClosing
    | binding | function | objectClass | enumeration | interface => exact passes_all_nil
  · exact passes_all_nil
  · exact passes_all_nil

/-- The exports that a pattern reads: the word `export`, what opens the form, a name, and what
closes the form. -/
theorem Form.spells_iff {form : Form} (names : form ≠ .list) {before : Option Char}
    {piece rest : List Char} {captures : List (Capture Char)} :
    form.pattern.Spells before piece rest captures ↔
      ∃ gap opening named closing,
        piece = "export".toList ++ (gap ++ (opening ++ (named ++ closing))) ∧
        before.any Text.isWord = false ∧ IsGap gap ∧
        (opening ++ (named ++ (closing ++ rest))).head?.any Text.isBlank = false ∧
        form.Opens opening (named ++ (closing ++ rest)) ∧ Name.isBindable named = true ∧
        (closing ++ rest).head?.any Name.isTail = false ∧ form.Closes closing rest ∧
        captures = [⟨1, named ++ (closing ++ rest), named.length⟩] := by
  have inside : Text.isWord 'e' = true := by decide
  have opening := (passes_text "export").all_cons (passes_gap.all_cons form.passes_opening)
  rw [spells_pattern names, spells_naming opening form.passes_closing]
  constructor
  · rintro ⟨_, named, closing, rfl, edge, ⟨_, _, rfl, rfl, gap, opening, rfl, ⟨isGap, stops⟩,
      opens⟩, bindable, ends, closes, rfl⟩
    exact ⟨gap, opening, named, closing, by simp, by simpa [inside] using edge, isGap,
      by simpa using stops, opens, bindable, ends, closes, rfl⟩
  · rintro ⟨gap, opening, named, closing, rfl, edge, isGap, stops, opens, bindable, ends, closes,
      rfl⟩
    exact ⟨"export".toList ++ (gap ++ opening), named, closing, by simp, by simpa [inside] using edge,
      ⟨_, gap ++ opening, rfl, rfl, gap, opening, rfl, ⟨isGap, stops⟩, opens⟩, bindable, ends,
      closes, rfl⟩

end ImportSupply.Export
