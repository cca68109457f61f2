import ImportSupply.Proofs.Binding.Names
import ImportSupply.Proofs.Pattern.Spelling
import ImportSupply.Proofs.Text.Classes
import ImportSupply.Proofs.Text.Cutting

/-!
# Headings of declarations

A declaration that names one thing has a heading: a keyword of its kind, what separates it from the
name, the name, and for a type what stands up to its equals sign.
-/

namespace ImportSupply.Binding

open Pattern

/-- The kinds of declarations that name one thing. -/
inductive Kind where
  | function
  | binding
  | objectClass
  | typeAlias
  | interface
  | enumeration
  deriving DecidableEq

namespace Kind

/-- What a declaration passes up to its name. -/
def opening : Kind → List (Pattern Char)
  | function => [maybeWord "async", text "function", blanks, maybe (text "*"), blanks]
  | binding => [variableWord, gap]
  | objectClass => [maybeWord "abstract", text "class", gap]
  | typeAlias => [text "type", gap]
  | interface => [text "interface", gap]
  | enumeration => [text "enum", gap]

/-- What a declaration passes behind its name. -/
def closing : Kind → List (Pattern Char)
  | typeAlias => [blanks, maybe (all [text "<", few (· != ';'), text ">"]), blanks, text "="]
  | _ => []

/-- The pattern of a kind. -/
def pattern (kind : Kind) : Pattern Char :=
  all (wordEdge :: (kind.opening ++ group 1 name :: kind.closing))

theorem namedDeclarations_eq :
    namedDeclarations =
      [function, binding, objectClass, typeAlias, interface, enumeration].map pattern :=
  rfl

/-- The words that a heading starts with. -/
def words : Kind → List String
  | function => ["function"]
  | binding => ["const", "let", "var"]
  | objectClass => ["class"]
  | typeAlias => ["type"]
  | interface => ["interface"]
  | enumeration => ["enum"]

/-- A word that the pattern of a kind accepts in front of the heading. -/
def modifiers : Kind → List String
  | function => ["async"]
  | objectClass => ["abstract"]
  | _ => []

/-- The characters that separate a keyword of a kind from the name. -/
def isSeparator : Kind → Char → Bool
  | function, c => Text.isBlank c || c == '*'
  | _, c => Text.isBlank c

/-- What separates a keyword of a kind from the name: at least one blank, or for a function blanks
and at most one star. -/
def Separates : Kind → List Char → Prop
  | function, text =>
      (∀ c ∈ text, Text.isBlank c = true) ∨
        ∃ left right, (∀ c ∈ left, Text.isBlank c = true) ∧ (∀ c ∈ right, Text.isBlank c = true) ∧
          text = left ++ '*' :: right
  | _, text => IsGap text

/-- What stands between the name and the rest of a declaration: for a type its parameters, without a
semicolon, and the equals sign. -/
def Closes : Kind → List Char → Prop
  | typeAlias, text =>
      ∃ left parameters right, (∀ c ∈ left, Text.isBlank c = true) ∧
        (parameters = [] ∨ ∃ inner, ';' ∉ inner ∧ parameters = '<' :: (inner ++ ['>'])) ∧
        (∀ c ∈ right, Text.isBlank c = true) ∧ text = left ++ (parameters ++ (right ++ ['=']))
  | _, text => text = []

/-- What may stand in front of a keyword: nothing, or a word of the kind and a gap. -/
def Modifies (kind : Kind) (text : List Char) : Prop :=
  text = [] ∨ ∃ word ∈ kind.modifiers, ∃ gap, IsGap gap ∧ text = word.toList ++ gap

/-- What the opening of a kind passes. -/
def Opens (kind : Kind) (piece rest : List Char) : Prop :=
  rest.head?.any Text.isBlank = false ∧ ∃ modifier, ∃ word ∈ kind.words, ∃ separator,
    kind.Modifies modifier ∧ kind.Separates separator ∧
      piece = modifier ++ (word.toList ++ separator)

theorem passes_variableWord :
    Passes variableWord fun piece _ => ∃ word ∈ binding.words, piece = word.toList := by
  have word := (passes_text "const").either ((passes_text "let").either (passes_text "var"))
  exact word.congr fun piece rest => by simp [words]

theorem passes_word_gap {words : List String} {keyword : Pattern Char}
    (passes : Passes keyword fun piece _ => ∃ word ∈ words, piece = word.toList) :
    Passes (all [keyword, gap]) fun piece rest => rest.head?.any Text.isBlank = false ∧
      ∃ word ∈ words, ∃ separator, IsGap separator ∧ piece = word.toList ++ separator := by
  refine (passes.all_cons (passes_gap.all_cons passes_all_nil)).congr fun piece rest => ?_
  constructor
  · rintro ⟨_, _, rfl, ⟨word, member, rfl⟩, separator, _, rfl, ⟨isGap, stops⟩, rfl⟩
    exact ⟨by simpa using stops, word, member, separator, isGap, by simp⟩
  · rintro ⟨stops, word, member, separator, isGap, rfl⟩
    exact ⟨_, separator, rfl, ⟨word, member, rfl⟩, separator, [], by simp,
      ⟨isGap, by simpa using stops⟩, rfl⟩

theorem passes_word (word : String) :
    Passes (text word) fun piece _ => ∃ own ∈ [word], piece = own.toList :=
  (passes_text word).congr fun _ _ => by simp

/-- A pattern that accepts no modifier and whose keyword is followed by a gap. -/
theorem opens_iff_of_gap (kind : Kind) (none : kind.modifiers = [])
    (gaps : kind.Separates = IsGap) (piece rest : List Char) :
    (rest.head?.any Text.isBlank = false ∧ ∃ word ∈ kind.words, ∃ separator, IsGap separator ∧
      piece = word.toList ++ separator) ↔ kind.Opens piece rest := by
  constructor
  · rintro ⟨stops, word, member, separator, isGap, rfl⟩
    exact ⟨stops, [], word, member, separator, .inl rfl, by rwa [gaps], rfl⟩
  · rintro ⟨stops, modifier, word, member, separator, rfl | ⟨_, wrong, -⟩, separates, rfl⟩
    · exact ⟨stops, word, member, separator, by rwa [gaps] at separates, rfl⟩
    · rw [none] at wrong
      cases wrong

theorem modifies_of_maybeWord {kind : Kind} {word : String} (own : word ∈ kind.modifiers)
    {piece rest : List Char}
    (passed : (∃ gap, piece = word.toList ++ gap ∧ IsGap gap ∧
      rest.head?.any Text.isBlank = false) ∨ piece = []) : kind.Modifies piece := by
  rcases passed with ⟨gap, rfl, isGap, -⟩ | rfl
  · exact .inr ⟨word, own, gap, isGap, rfl⟩
  · exact .inl rfl

theorem passes_opening_function : Passes (all function.opening) function.Opens := by
  have star := (passes_text "*").maybe
  have passes := (passes_maybeWord "async").all_cons ((passes_text "function").all_cons
    (passes_blanks.all_cons (star.all_cons (passes_blanks.all_cons passes_all_nil))))
  refine passes.congr fun piece rest => ?_
  constructor
  · rintro ⟨modifier, _, rfl, modifies, _, _, rfl, rfl, left, _, rfl, ⟨leading, stops⟩, star, _,
      rfl, isStar, right, _, rfl, ⟨trailing, stops'⟩, rfl⟩
    refine ⟨by simpa using stops', modifier, "function", List.mem_singleton.mpr rfl,
      left ++ (star ++ right), modifies_of_maybeWord (List.mem_singleton.mpr rfl) modifies, ?_,
      by simp⟩
    -- without a star the two stretches of blanks are one
    rcases isStar with rfl | rfl
    · exact .inr ⟨left, right, leading, trailing, rfl⟩
    · left
      intro c member
      rcases List.mem_append.mp member with member | member
      · exact leading c member
      · exact trailing c (by simpa using member)
  · rintro ⟨stops, modifier, word, member, separator, modifies, separates, rfl⟩
    obtain rfl := List.mem_singleton.mp member
    have modifies' : (∃ gap, modifier = "async".toList ++ gap ∧ IsGap gap ∧
        ("function".toList ++ separator ++ rest).head?.any Text.isBlank = false) ∨
          modifier = [] := by
      rcases modifies with rfl | ⟨own, member, gap, isGap, rfl⟩
      · exact .inr rfl
      · obtain rfl := List.mem_singleton.mp member
        exact .inl ⟨gap, rfl, isGap, rfl⟩
    rcases separates with blank | ⟨left, right, leading, trailing, rfl⟩
    · exact ⟨modifier, _, rfl, modifies', _, separator, rfl, rfl, separator, [], by simp,
        ⟨blank, stops⟩, [], [], rfl, .inr rfl, [], [], rfl, ⟨by simp, stops⟩, rfl⟩
    · exact ⟨modifier, _, rfl, modifies', _, _, rfl, rfl, left, '*' :: right, rfl, ⟨leading, rfl⟩,
        ['*'], right, rfl, .inl rfl, right, [], by simp, ⟨trailing, stops⟩, rfl⟩

theorem passes_opening_objectClass : Passes (all objectClass.opening) objectClass.Opens := by
  have passes := (passes_maybeWord "abstract").all_cons (passes_word_gap (passes_word "class"))
  refine passes.congr fun piece rest => ?_
  constructor
  · rintro ⟨modifier, _, rfl, modifies, stops, word, member, separator, isGap, rfl⟩
    exact ⟨stops, modifier, word, member, separator,
      modifies_of_maybeWord (List.mem_singleton.mpr rfl) modifies, isGap, rfl⟩
  · rintro ⟨stops, modifier, word, member, separator, modifies, isGap, rfl⟩
    refine ⟨modifier, _, rfl, ?_, stops, word, member, separator, isGap, rfl⟩
    obtain rfl := List.mem_singleton.mp member
    rcases modifies with rfl | ⟨own, member, gap, isGap, rfl⟩
    · exact .inr rfl
    · obtain rfl := List.mem_singleton.mp member
      exact .inl ⟨gap, rfl, isGap, rfl⟩

theorem passes_opening (kind : Kind) : Passes (all kind.opening) kind.Opens := by
  cases kind with
  | function => exact passes_opening_function
  | binding => exact (passes_word_gap passes_variableWord).congr (opens_iff_of_gap binding rfl rfl)
  | objectClass => exact passes_opening_objectClass
  | typeAlias =>
    exact (passes_word_gap (passes_word "type")).congr (opens_iff_of_gap typeAlias rfl rfl)
  | interface =>
    exact (passes_word_gap (passes_word "interface")).congr (opens_iff_of_gap interface rfl rfl)
  | enumeration =>
    exact (passes_word_gap (passes_word "enum")).congr (opens_iff_of_gap enumeration rfl rfl)

theorem passes_few (accept : Char → Bool) :
    Passes (few accept) fun piece _ => ∀ c ∈ piece, accept c = true :=
  fun _ _ _ _ => Iff.rfl

theorem passes_closing_typeAlias :
    Passes (all typeAlias.closing) fun piece _ => typeAlias.Closes piece := by
  have parameters := ((passes_text "<").all_cons ((passes_few (· != ';')).all_cons
    ((passes_text ">").all_cons passes_all_nil))).maybe
  have passes := passes_blanks.all_cons (parameters.all_cons (passes_blanks.all_cons
    ((passes_text "=").all_cons passes_all_nil)))
  refine passes.congr fun piece rest => ?_
  constructor
  · rintro ⟨left, _, rfl, ⟨leading, -⟩, parameters, _, rfl, isList, right, _, rfl, ⟨trailing, -⟩,
      _, _, rfl, rfl, rfl⟩
    refine ⟨left, parameters, right, leading, ?_, trailing, by simp⟩
    rcases isList with ⟨_, _, rfl, rfl, inner, _, rfl, inside, _, _, rfl, rfl, rfl⟩ | rfl
    · refine .inr ⟨inner, fun member => ?_, by simp⟩
      simpa using inside ';' member
    · exact .inl rfl
  · rintro ⟨left, parameters, right, leading, isList, trailing, rfl⟩
    rcases isList with rfl | ⟨inner, inside, rfl⟩
    -- without parameters the first stretch of blanks takes what the second one could
    · have blank : ∀ c ∈ left ++ right, Text.isBlank c = true := by
        intro c member
        rcases List.mem_append.mp member with member | member
        · exact leading c member
        · exact trailing c member
      exact ⟨left ++ right, ['='], by simp, ⟨blank, rfl⟩, [], ['='], rfl, .inr rfl, [], ['='], rfl,
        ⟨by simp, rfl⟩, ['='], [], rfl, rfl, rfl⟩
    · have inside' : ∀ c ∈ inner, (c != ';') = true := by
        intro c member
        rw [bne_iff_ne]
        rintro rfl
        exact inside member
      exact ⟨left, _, rfl, ⟨leading, rfl⟩, '<' :: (inner ++ ['>']), _, rfl,
        .inl ⟨['<'], inner ++ ['>'], rfl, rfl, inner, ['>'], rfl, inside', ['>'], [], rfl, rfl,
          rfl⟩, right, ['='], rfl, ⟨trailing, rfl⟩, ['='], [], rfl, rfl, rfl⟩

theorem passes_closing (kind : Kind) :
    Passes (all kind.closing) fun piece _ => kind.Closes piece := by
  cases kind with
  | typeAlias => exact passes_closing_typeAlias
  | _ => exact passes_all_nil

/-! ## Headings in a text -/

/-- A text that starts with a heading of a kind. -/
def Heads (kind : Kind) (named text : List Char) : Prop :=
  ∃ word ∈ kind.words, ∃ separator closing rest, kind.Separates separator ∧
    Name.isBindable named = true ∧ (closing ++ rest).head?.any Name.isTail = false ∧
    kind.Closes closing ∧ text = word.toList ++ (separator ++ (named ++ (closing ++ rest)))

theorem spells_pattern {kind : Kind} {before : Option Char} {piece rest : List Char}
    {captures : List (Capture Char)} :
    kind.pattern.Spells before piece rest captures ↔
      ∃ front named back, piece = front ++ (named ++ back) ∧
        before.any Text.isWord ≠ (piece ++ rest).head?.any Text.isWord ∧
        kind.Opens front (named ++ (back ++ rest)) ∧ Name.isBindable named = true ∧
        (back ++ rest).head?.any Name.isTail = false ∧ kind.Closes back ∧
        captures = [⟨1, named ++ (back ++ rest), named.length⟩] :=
  spells_naming kind.passes_opening kind.passes_closing

theorem isSeparator_of_separates {kind : Kind} {separator : List Char}
    (separates : kind.Separates separator) : ∀ c ∈ separator, kind.isSeparator c = true := by
  intro c member
  cases kind with
  | function =>
    rcases separates with blank | ⟨left, right, leading, trailing, rfl⟩
    · simp [isSeparator, blank c member]
    · simp only [List.mem_append, List.mem_cons] at member
      rcases member with member | rfl | member
      · simp [isSeparator, leading c member]
      · rfl
      · simp [isSeparator, trailing c member]
  | _ => exact separates.2 c member

theorem isSeparator_eq_false_of_isTail {kind : Kind} {c : Char} (tail : Name.isTail c = true) :
    kind.isSeparator c = false := by
  have blank := Name.isBlank_eq_false_of_isTail tail
  have star : c ≠ '*' := by
    rintro rfl
    revert tail
    decide
  cases kind <;> simp [isSeparator, blank, star]

theorem isWord_of_mem_words {kind : Kind} {word : String} (member : word ∈ kind.words) :
    ∀ c ∈ word.toList, Text.isWord c = true := by
  revert word
  cases kind <;> decide

theorem ne_nil_of_mem_words {kind : Kind} {word : String} (member : word ∈ kind.words) :
    word.toList ≠ [] := by
  revert word
  cases kind <;> decide

/-- No keyword starts with another one. -/
theorem eq_of_mem_words {kind : Kind} {word other : String} (member : word ∈ kind.words)
    (member' : other ∈ kind.words) {rest rest' : List Char}
    (same : word.toList ++ rest = other.toList ++ rest') : word = other ∧ rest = rest' :=
  Text.eq_of_append_word (by cases kind <;> decide) member member' same

theorem isTail_of_mem_words {kind : Kind} {word : String} (member : word ∈ kind.words) :
    ∀ c ∈ word.toList, Name.isTail c = true := by
  intro c own
  simp [Name.isTail, isWord_of_mem_words member c own]

theorem head?_isSeparator_eq_false {kind : Kind} {run rest : List Char} (nonempty : run ≠ [])
    (tail : ∀ c ∈ run, Name.isTail c = true) :
    (run ++ rest).head?.any kind.isSeparator = false := by
  obtain ⟨c, run, rfl⟩ := List.exists_cons_of_ne_nil nonempty
  exact isSeparator_eq_false_of_isTail (tail c List.mem_cons_self)

theorem ne_nil_of_isBindable {text : List Char} (bindable : Name.isBindable text = true) :
    text ≠ [] := by
  rintro rfl
  cases bindable

/-- Two headings at one place have one name. -/
theorem Heads.named_eq {kind : Kind} {named other text : List Char} (heads : kind.Heads named text)
    (heads' : kind.Heads other text) : named = other := by
  obtain ⟨word, member, separator, closing, rest, separates, bindable, stops, -, rfl⟩ := heads
  obtain ⟨word', member', separator', closing', rest', separates', bindable', stops', -, same⟩ :=
    heads'
  have tail := (Name.isBindable_iff.mp bindable).2
  have tail' := (Name.isBindable_iff.mp bindable').2
  obtain ⟨rfl, behind⟩ := eq_of_mem_words member member' same
  obtain ⟨-, names⟩ := Text.eq_of_append_run (isSeparator_of_separates separates)
    (head?_isSeparator_eq_false (ne_nil_of_isBindable bindable) tail)
    (isSeparator_of_separates separates')
    (head?_isSeparator_eq_false (ne_nil_of_isBindable bindable') tail') behind
  exact (Text.eq_of_append_run tail stops tail' stops' names).1

/-- Where a heading can stand inside another: in place of its name, or behind its name. -/
theorem Heads.cut_cases {kind : Kind} {named back : List Char} (heads : kind.Heads named back)
    {skipped separator other closing rest : List Char} {word : String} (member : word ∈ kind.words)
    (separates : kind.Separates separator) (bindable : Name.isBindable other = true)
    (nonempty : skipped ≠ []) (edge : skipped.getLast?.any Name.isTail = false)
    (inside : skipped.length < (word.toList ++ (separator ++ (other ++ closing))).length)
    (same : skipped ++ back = word.toList ++ (separator ++ (other ++ (closing ++ rest)))) :
    skipped = word.toList ++ separator ∨
      ∃ left right, closing = left ++ right ∧ right ≠ [] ∧ back = right ++ rest ∧
        skipped = word.toList ++ (separator ++ (other ++ left)) := by
  obtain ⟨word', member', separator', closing', rest', separates', bindable', stops', -, rfl⟩ :=
    heads
  have begins : (word'.toList ++ (separator' ++ (named ++ (closing' ++ rest')))).head?.any
      kind.isSeparator = false :=
    head?_isSeparator_eq_false (ne_nil_of_mem_words member') (isTail_of_mem_words member')
  -- A heading starts with a keyword, at the edge of a word: neither the other keyword, nor its
  -- separator, nor its name can be cut there. What is left is the place of the name and what stands
  -- behind it.
  obtain ⟨more, rfl, behindWord⟩ :=
    Text.exists_append_of_getLast? same (isTail_of_mem_words member) nonempty edge
  obtain ⟨more, rfl, behindSeparator⟩ :=
    Text.exists_append_of_head? behindWord (isSeparator_of_separates separates) begins
  by_cases behind : more = []
  · left
    rw [behind, List.append_nil]
  · right
    have edge' : more.getLast?.any Name.isTail = false := by
      rwa [← List.append_assoc, List.getLast?_append_of_ne_nil _ behind] at edge
    obtain ⟨left, rfl, behindName⟩ := Text.exists_append_of_getLast? behindSeparator
      (Name.isBindable_iff.mp bindable).2 behind edge'
    have shorter : left.length < closing.length := by
      simp only [List.length_append] at inside
      omega
    rcases List.append_eq_append_iff.mp behindName with ⟨right, rfl, rest_eq⟩ | ⟨right, rfl, -⟩
    · refine ⟨left, right, rfl, ?_, rest_eq, rfl⟩
      rintro rfl
      simp at shorter
    · rw [List.length_append] at shorter
      omega

end Kind

end ImportSupply.Binding
