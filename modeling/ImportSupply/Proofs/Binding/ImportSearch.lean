import ImportSupply.Proofs.Binding.ImportReading

/-!
# Searching scripts for imports

Searched for import statements, a script of imports and re-exports says the names of its import
clauses (`finds_importStatement`). An import statement gives one match, with its own clause
(`Statement.finds_imports`). A re-export gives none that binds a name: inside a list such as
`{ import, x }` a match can start, but its clause ends with the closing brace.
-/

namespace ImportSupply.Binding

open Literal Pattern

/-! ## Import statements -/

theorem isClauseChar_of_isListed {c : Char} (listed : isListed c = true) :
    isClauseChar c = true := by
  by_contra outside
  simp only [isClauseChar, Bool.not_eq_true', Bool.not_eq_false, Bool.or_eq_true,
    beq_iff_eq] at outside
  rcases outside with ((((rfl | rfl) | rfl) | rfl) | rfl) | rfl <;> exact absurd listed (by decide)

theorem Target.isClauseChar_of_mem {target : Target} {c : Char}
    (member : c ∈ displayOf target.segments) : isClauseChar c = true := by
  have layout {layout : Layout} (member : c ∈ layout.display) : isClauseChar c = true :=
    isClauseChar_of_isListed (isListed_of_isBlank (Layout.isBlank_of_mem_display member))
  cases target with
  | list slots trailing =>
    rw [displayOf_list] at member
    simp only [List.mem_cons, List.mem_append] at member
    rcases member with rfl | member | rfl | member
    · decide
    · exact isClauseChar_of_isListed (isListed_of_mem_listText member)
    · decide
    · exact layout member
  | star before after bound trailing =>
    rw [displayOf_star] at member
    simp only [List.mem_cons, List.mem_append] at member
    rcases member with rfl | member | member | member | member | member
    · decide
    · exact layout member
    · exact (by decide : ∀ c ∈ "as".toList, isClauseChar c = true) c member
    · exact layout member
    · exact isClauseChar_of_isTail (bound.isTail_of_mem member)
    · exact layout member

theorem Clause.isClauseChar_of_mem {clause : Clause} {c : Char}
    (member : c ∈ displayOf clause.segments) : isClauseChar c = true := by
  rw [clause.displayOf_segments] at member
  rcases List.mem_append.mp member with member | member
  · exact isClauseChar_of_isListed (isListed_of_mem_front member)
  · cases clause with
    | default => cases member
    | bare => exact Target.isClauseChar_of_mem member
    | both => exact Target.isClauseChar_of_mem member

theorem Bindable.head?_isHead (bound : Bindable) (rest : List Char) :
    (bound.text ++ rest).head?.any Name.isHead = true := by
  obtain ⟨⟨c, more, text, head⟩, -⟩ := Name.isBindable_iff.mp bound.bindable
  rw [text]
  exact head

/-- A clause is read as one, behind the layout in front of it. -/
theorem Clause.exists_clauseAt (clause : Clause) :
    ∃ number, ClauseAt number clause.leading.display (displayOf clause.segments) := by
  have blank : ∀ c ∈ clause.leading.display, Text.isBlank c = true :=
    fun _ => Layout.isBlank_of_mem_display
  have inside : ∀ c ∈ displayOf clause.segments, isClauseChar c = true :=
    fun _ => isClauseChar_of_mem
  cases clause with
  | default leading bound trailing =>
    refine ⟨2, blank, inside, .inr ⟨rfl, leading.display_ne_nil, ?_⟩⟩
    rw [displayOf_segments, front, List.append_assoc]
    exact bound.head?_isHead _
  | bare leading target =>
    refine ⟨1, blank, inside, .inl ⟨rfl, ?_⟩⟩
    cases target with
    | list slots trailing => rfl
    | star before after bound trailing => rfl
  | both leading bound before after target =>
    refine ⟨2, blank, inside, .inr ⟨rfl, leading.display_ne_nil, ?_⟩⟩
    rw [displayOf_segments, front, List.append_assoc]
    exact bound.head?_isHead _

theorem Target.getLast?_isWord (target : Target) (front : List Char) :
    (front ++ displayOf target.segments).getLast?.any Text.isWord = false := by
  cases target with
  | list slots trailing =>
    have whole : front ++ displayOf (list slots trailing).segments =
        front ++ '{' :: listText slots ++ '}' :: trailing.display := by
      simp [displayOf_list]
    rw [whole]
    refine Text.getLast?_any_append (by simp) fun c member => ?_
    rcases List.mem_cons.mp member with rfl | member
    · decide
    · exact Text.isWord_eq_false_of_isBlank (Layout.isBlank_of_mem_display member)
  | star before after bound trailing =>
    have whole : front ++ displayOf (star before after bound trailing).segments =
        front ++ '*' :: (before.display ++ ("as".toList ++ (after.display ++ bound.text))) ++
          trailing.display := by
      simp [displayOf_star]
    rw [whole]
    exact Text.getLast?_any_append trailing.display_ne_nil fun c member =>
      Text.isWord_eq_false_of_isBlank (Spacing.isBlank_of_mem_display member)

theorem Clause.getLast?_isWord (clause : Clause) :
    (displayOf clause.segments).getLast?.any Text.isWord = false := by
  rw [clause.displayOf_segments]
  cases clause with
  | default leading bound trailing =>
    rw [back, List.append_nil]
    exact Text.getLast?_any_append trailing.display_ne_nil fun c member =>
      Text.isWord_eq_false_of_isBlank (Spacing.isBlank_of_mem_display member)
  | bare leading target => exact target.getLast?_isWord _
  | both leading bound before after target => exact target.getLast?_isWord _

theorem ClauseAt.head?_isTail {number : Nat} {lead clause : List Char}
    (clauseAt : ClauseAt number lead clause) :
    (lead ++ clause).head?.any Name.isTail = false := by
  obtain ⟨c, more, rfl⟩ := List.exists_cons_of_ne_nil clauseAt.ne_nil
  cases lead with
  | cons d lead => exact Name.isTail_eq_false_of_isBlank (clauseAt.blank d List.mem_cons_self)
  | nil =>
    rcases clauseAt.begins with ⟨-, mark⟩ | ⟨-, nonempty, -⟩
    · rcases isMark_iff.mp mark with rfl | rfl <;> rfl
    · exact absurd rfl nonempty

theorem ClauseAt.head?_isWord {number : Nat} {lead clause : List Char}
    (clauseAt : ClauseAt number lead clause) (rest : List Char) :
    (lead ++ (clause ++ rest)).head?.any Text.isWord = false := by
  have outside := clauseAt.head?_isTail
  obtain ⟨c, more, rfl⟩ := List.exists_cons_of_ne_nil clauseAt.ne_nil
  cases lead with
  | nil => exact (Bool.or_eq_false_iff.mp outside).1
  | cons d lead => exact (Bool.or_eq_false_iff.mp outside).1

/-- No clause follows a name and layout directly: a comma does, or nothing. -/
theorem ClauseAt.text_ne {number : Nat} {lead clause : List Char}
    (clauseAt : ClauseAt number lead clause) {bound : Bindable} {pad rest : List Char}
    (padded : ∀ c ∈ pad, Text.isBlank c = true)
    (behind : rest = [] ∨ ∃ more, rest = ',' :: more) {word : List Char}
    (tails : ∀ c ∈ word, Name.isTail c = true) :
    bound.text ++ (pad ++ rest) ≠ word ++ (lead ++ clause) := by
  intro same
  have stops : rest.head?.any Text.isBlank = false := by
    rcases behind with rfl | ⟨more, rfl⟩ <;> rfl
  have outside : (pad ++ rest).head?.any Name.isTail = false := by
    rcases behind with rfl | ⟨more, rfl⟩
    · rw [List.append_nil]
      exact Name.head?_isTail_of_blank padded
    · exact Name.head?_isTail_of_padded padded (by decide) more
  obtain ⟨-, tail⟩ := Text.eq_of_append_run (fun _ => bound.isTail_of_mem) outside tails
    clauseAt.head?_isTail same
  have clauseStops := clauseAt.head?_isBlank []
  rw [List.append_nil] at clauseStops
  obtain ⟨-, rfl⟩ := Text.eq_of_append_run padded stops clauseAt.blank clauseStops tail
  -- what is left is the clause, and no clause is empty or starts with a comma
  rcases behind with rfl | ⟨more, rfl⟩
  · exact clauseAt.ne_nil rfl
  · rcases clauseAt.begins with ⟨-, mark⟩ | ⟨-, -, head⟩
    · exact absurd mark (by decide : isMark ',' ≠ true)
    · exact absurd head (by decide : Name.isHead ',' ≠ true)

/-- The clause of an import without the word `type` is not read as one behind that word, not even if
its default name is `type`. -/
theorem Clause.matchAt_typeWord (clause : Clause) {pad : List Char}
    (blank : ∀ c ∈ pad, Text.isBlank c = true) {mark : Char} (quote : isQuote mark = true)
    (before : Option Char) (index : Nat) (rest : List Char) :
    (importWith typeWord).matchAt ⟨before, index, "import".toList ++ (clause.leading.display ++
      (displayOf clause.segments ++ ("from".toList ++ (pad ++ mark :: rest))))⟩ = none := by
  by_contra starts
  obtain ⟨found, starts⟩ := Option.ne_none_iff_exists'.mp starts
  obtain ⟨piece, rest', captures, same, spells, -⟩ := exists_spells_of_matchAt starts
  obtain ⟨_, number, lead, clause', pad', mark', rfl, -, ⟨space, rfl, isGap, -⟩, clauseAt, -,
    blank', quote', -⟩ := (spells_importWith passes_typeWord).mp spells
  obtain ⟨own, ownAt⟩ := clause.exists_clauseAt
  have unquoted : ∀ c ∈ space ++ "type".toList ++ (lead ++ clause'), isQuote c = false := by
    intro c member
    rcases List.mem_append.mp member with member | member
    · rcases List.mem_append.mp member with member | member
      · exact isQuote_eq_false_of_isBlank (isGap.2 c member)
      · exact (by decide : ∀ c ∈ "type".toList, isQuote c = false) c member
    · exact clauseAt.isQuote_eq_false c member
  have stretch : clause.leading.display ++ displayOf clause.segments ++
      ("from".toList ++ (pad ++ mark :: rest)) =
        space ++ "type".toList ++ (lead ++ clause') ++
          ("from".toList ++ (pad' ++ mark' :: rest')) := by
    simpa using same
  obtain ⟨opening, -⟩ :=
    eq_of_stretch ownAt.isQuote_eq_false unquoted blank blank' quote quote' stretch
  rw [List.append_assoc] at opening
  have stops := ownAt.head?_isBlank []
  rw [List.append_nil] at stops
  -- Both readings end at the same quote, so the clause itself would start with the word `type` and
  -- go on with another clause.
  obtain ⟨-, shown⟩ := Text.eq_of_append_run ownAt.blank stops isGap.2 rfl opening
  have tails : ∀ c ∈ "type".toList, Name.isTail c = true := by decide
  rw [clause.displayOf_segments] at shown
  cases clause with
  | default leading bound trailing =>
    refine @ClauseAt.text_ne _ _ _ clauseAt bound trailing.display []
      (fun _ => Spacing.isBlank_of_mem_display) (.inl rfl) _ tails ?_
    simpa [front, back] using shown
  | bare leading target =>
    cases target with
    | list slots trailing => exact absurd (List.cons.inj shown).1 (by decide)
    | star before after bound trailing => exact absurd (List.cons.inj shown).1 (by decide)
  | both leading bound before after target =>
    refine @ClauseAt.text_ne _ _ _ clauseAt bound before.display
      (',' :: (after.display ++ displayOf target.segments))
      (fun _ => Layout.isBlank_of_mem_display) (.inr ⟨_, rfl⟩) _ tails ?_
    simpa [front, back] using shown

namespace Statement

/-- What a statement shows up to the opening quote of its module. -/
def shownStart (statement : Statement) : List Char :=
  displayOf statement.opening ++ [statement.source.quote.char]

/-- What a statement shows of its module, with the closing quote. -/
def shownEnd (statement : Statement) : List Char :=
  statement.source.shownBody ++ [statement.source.quote.char]

theorem displayOf_segments (statement : Statement) :
    displayOf statement.segments = statement.shownStart ++ statement.shownEnd := by
  simp [segments, shownStart, shownEnd, Quoted.display]

theorem isQuote_char (quote : Quote) : isQuote quote.char = true := by
  cases quote <;> rfl

theorem getLast?_isWord_shownStart (statement : Statement) :
    statement.shownStart.getLast?.any Text.isWord = false := by
  rw [shownStart, List.getLast?_concat]
  cases statement.source.quote <;> decide

theorem getLast?_isWord_shownEnd (statement : Statement) :
    statement.shownEnd.getLast?.any Text.isWord = false := by
  rw [shownEnd, List.getLast?_concat]
  cases statement.source.quote <;> decide

/-- Behind the opening quote of a module stand blanks, backslashes and the closing quote. -/
theorem mem_shownEnd {statement : Statement} {c : Char} (member : c ∈ statement.shownEnd) :
    Text.isBlank c = true ∨ c ∈ ['\\', '\'', '"'] := by
  rcases List.mem_append.mp member with member | member
  · rcases Quoted.mem_shownBody member with blank | rfl
    · exact .inl blank
    · exact .inr (by decide)
  · rw [List.mem_singleton.mp member]
    cases statement.source.quote <;> exact .inr (by decide)

end Statement

theorem passes_nothing : Passes (nothing : Pattern Char) fun piece _ => piece = [] :=
  fun _ _ _ _ => Iff.rfl

/-- The word `type` behind a keyword is read in one way. -/
theorem eq_of_typeWord {space space' back back' : List Char} (isGap : IsGap space)
    (isGap' : IsGap space')
    (same : space ++ "type".toList ++ back = space' ++ "type".toList ++ back') :
    space = space' := by
  rw [List.append_assoc, List.append_assoc] at same
  exact (Text.eq_of_append_run isGap.2 rfl isGap'.2 rfl same).1

theorem Statement.shownStart_imports (typed : Option Spacing) (clause : Clause) (gap : Layout)
    (source : Quoted) :
    (imports typed clause gap source).shownStart = "import".toList ++
      (displayOf (typeSegments typed) ++ (clause.leading.display ++ (displayOf clause.segments ++
        ("from".toList ++ (gap.display ++ [source.quote.char]))))) := by
  simp [shownStart, opening, Statement.source]

/-- An import statement binds the names of its clause. -/
theorem Statement.finds_imports (typed : Option Spacing) (clause : Clause) (gap : Layout)
    (source : Quoted) :
    Finds importStatement ofImport (imports typed clause gap source).shownStart clause.names := by
  refine finds_of_matchAt (by simp [shownStart]) (getLast?_isWord_shownStart _)
    fun before index back outside => ?_
  have blank : ∀ c ∈ gap.display, Text.isBlank c = true := fun _ => Layout.isBlank_of_mem_display
  have quote := isQuote_char source.quote
  have edge := clause.getLast?_isWord
  obtain ⟨number, clauseAt⟩ := clause.exists_clauseAt
  have whole : (imports typed clause gap source).shownStart ++ back = "import".toList ++
      (displayOf (typeSegments typed) ++ (clause.leading.display ++ (displayOf clause.segments ++
        ("from".toList ++ (gap.display ++ source.quote.char :: back))))) := by
    simp [shownStart_imports]
  rw [whole, matchAt_importStatement outside, ← clause.ofClause_displayOf, shownStart_imports]
  -- The pattern tries the word `type` first, and the bare form only where that fails.
  cases typed with
  | none =>
    obtain ⟨found, starts, length, reads⟩ := exists_matchAt_importWith passes_nothing
      (fun _ _ _ _ own own' _ => own.trans own'.symm) outside back rfl clauseAt edge blank quote
      index
    refine ⟨found, ?_, length, reads⟩
    have untyped := clause.matchAt_typeWord blank quote before index back
    rw [typeSegments, displayOf_nil, List.nil_append, untyped, Option.none_or]
    exact starts
  | some space =>
    have spaced : IsGap space.display :=
      ⟨space.display_ne_nil, fun _ => Spacing.isBlank_of_mem_display⟩
    have typing : displayOf (typeSegments (some space)) = space.display ++ "type".toList := by
      simp [typeSegments]
    obtain ⟨found, starts, length, reads⟩ := exists_matchAt_importWith passes_typeWord
      (by
        rintro _ _ _ _ ⟨space, rfl, isGap, -⟩ ⟨space', rfl, isGap', -⟩ same
        rw [eq_of_typeWord isGap isGap' same]) outside back
      ⟨space.display, rfl, spaced, clauseAt.head?_isWord _⟩ clauseAt edge blank quote index
    refine ⟨found, ?_, ?_, reads⟩
    · rw [typing, starts, Option.some_or]
    · rw [typing, length]

/-! ## Statements that import nothing -/

/-- Where an import is read in a text up to its first quote, the text from there on is the
import. -/
theorem eq_of_spells_importStatement {text front tail back piece rest : List Char} {mark : Char}
    {before : Option Char} {captures : List (Capture Char)}
    (unquoted : ∀ c ∈ text, isQuote c = false) (quote : isQuote mark = true)
    (split : text ++ [mark] = front ++ tail) (nonempty : tail ≠ [])
    (same : tail ++ back = piece ++ rest)
    (spells : importStatement.Spells before piece rest captures) :
    ∃ typed number lead clause pad more,
      text = front ++ ("import".toList ++ (typed ++ (lead ++ (clause ++
        ("from".toList ++ pad))))) ∧
      ClauseAt number lead clause ∧ (∀ c ∈ pad, Text.isBlank c = true) ∧ piece = tail ∧
      captures = [⟨number, clause ++ more, clause.length⟩] := by
  obtain ⟨typed, number, lead, clause, pad, mark', rfl, -, typing, clauseAt, -, blank, quote',
    rfl⟩ := (spells_importWith passes_maybe_typeWord).mp spells
  have typedUnquoted : ∀ c ∈ "import".toList ++ typed, isQuote c = false := by
    intro c member
    rcases List.mem_append.mp member with member | member
    · exact (by decide : ∀ c ∈ "import".toList, isQuote c = false) c member
    rcases typing.1.isBlank_or_mem member with blank | word
    · exact isQuote_eq_false_of_isBlank blank
    · exact (by decide : ∀ c ∈ "type".toList, isQuote c = false) c word
  have readUnquoted := isQuote_eq_false_of_mem_from (fun c member => by
    rcases List.mem_append.mp member with member | member
    · exact typedUnquoted c member
    · exact clauseAt.isQuote_eq_false c member) blank
  -- the tail ends with the quote of the text, and that is the first quote in it
  obtain ⟨inner, last, rfl⟩ : ∃ inner last, tail = inner ++ [last] :=
    ⟨_, _, (List.dropLast_append_getLast nonempty).symm⟩
  rw [← List.append_assoc] at split
  obtain ⟨rfl, lasts⟩ := List.append_inj' split rfl
  obtain rfl := (List.cons.inj lasts).1
  obtain ⟨rfl, rfl, rfl⟩ := eq_of_quote
    (fun c member => unquoted c (List.mem_append_right front member)) readUnquoted quote quote'
    (show inner ++ mark :: back = _ ++ mark' :: rest by simpa using same)
  exact ⟨typed, number, lead, clause, pad, _, by simp, clauseAt, blank, by simp, rfl⟩

/-- A clause that ends with a closing brace, without an opening one, binds nothing. -/
theorem ofClause_eq_nil {inner pad : List Char} (unmarked : ∀ c ∈ inner, isMark c = false)
    (first : (inner ++ ['}']).head?.any Text.isBlank = false)
    (padded : ∀ c ∈ pad, Text.isBlank c = true) : ofClause (inner ++ '}' :: pad) = [] := by
  have all : ∀ c ∈ inner ++ '}' :: pad, isMark c = false := by
    intro c member
    rcases List.mem_append.mp member with member | member
    · exact unmarked c member
    rcases List.mem_cons.mp member with rfl | member
    · decide
    · exact isMark_eq_false_of_isListed (isListed_of_isBlank (padded c member))
  have last : (inner ++ ['}']).getLast? = some '}' := List.getLast?_concat
  have trimmed : Text.trim (inner ++ '}' :: pad) = inner ++ ['}'] := by
    have whole := @Text.trim_padded [] (inner ++ ['}']) pad (by simp) padded (by simp) first
      (by rw [last]; decide)
    simpa using whole
  have kept : Text.dropEnd (· == ',') (inner ++ ['}']) = inner ++ ['}'] := by
    have dropped := @Text.dropEnd_append (· == ',') (inner ++ ['}']) [] (by rw [last]; decide)
      (by simp)
    rwa [List.append_nil] at dropped
  -- a clause without marks can bind a default name only, and no name has a brace
  have noName : bindable? (inner ++ ['}']) = none := by
    rw [bindable?, if_neg]
    intro bindable
    exact absurd ((Name.isBindable_iff.mp bindable).2 '}' (by simp)) (by decide)
  have default : defaultOfClause (inner ++ '}' :: pad) = none := by
    have whole := @defaultOfClause_append (inner ++ '}' :: pad) [] all rfl
    rw [List.append_nil] at whole
    rw [whole, trimmed, kept, Text.trim_eq_self first (by rw [last]; decide), noName]
  rw [ofClause, default, bracedOfClause_eq_nil (not_mem_of_isMark all (by decide)),
    namespaceOfClause_eq_none (not_mem_of_isMark all (by decide))]
  rfl

/-- A clause that ends in a text behind its last brace and blanks starts before the brace. -/
theorem ClauseAt.exists_of_append_eq {number : Nat} {lead clause front text pad : List Char}
    (clauseAt : ClauseAt number lead clause) (padded : ∀ c ∈ pad, Text.isBlank c = true)
    (same : front ++ clause = text ++ '}' :: pad) :
    ∃ inner, text = front ++ inner ∧ clause = inner ++ '}' :: pad := by
  have stops := clauseAt.head?_isBlank []
  obtain ⟨c, more, rfl⟩ := List.exists_cons_of_ne_nil clauseAt.ne_nil
  rcases List.append_eq_append_iff.mp same with ⟨inner, rfl, whole⟩ | ⟨inner, rfl, tail⟩
  · exact ⟨inner, rfl, whole⟩
  · cases inner with
    | nil => exact ⟨[], by simp, by simpa using tail.symm⟩
    | cons d inner =>
      obtain ⟨-, rfl⟩ := List.cons.inj tail
      have blank := padded c (by simp)
      rw [List.append_nil] at stops
      exact absurd blank (by simpa using stops)

/-- No clause stands in a name and the layout behind it. -/
theorem ClauseAt.ne_of_bindable {number : Nat} {lead clause : List Char}
    (clauseAt : ClauseAt number lead clause) (bound : Bindable) {pad : List Char}
    (padded : ∀ c ∈ pad, Text.isBlank c = true) {front : List Char} :
    bound.text ++ pad ≠ front ++ (lead ++ clause) := by
  intro same
  have stops := clauseAt.head?_isBlank []
  obtain ⟨c, more, rfl⟩ := List.exists_cons_of_ne_nil clauseAt.ne_nil
  have member : c ∈ bound.text ++ pad := by simp [same]
  rw [← List.append_assoc] at same
  rcases List.append_eq_append_iff.mp same with ⟨inner, -, tail⟩ | ⟨inner, name, -⟩
  · have blank := padded c (by simp [tail])
    exact absurd blank (by simpa using stops)
  · rcases clauseAt.begins with ⟨-, mark⟩ | ⟨-, spaced, -⟩
    · rcases List.mem_append.mp member with inName | inPad
      · rcases isMark_iff.mp mark with rfl | rfl <;>
          exact bound.not_mem_of_isTail_eq_false (by decide) inName
      · exact absurd (padded c inPad) (by simpa using stops)
    · obtain ⟨d, lead, rfl⟩ := List.exists_cons_of_ne_nil spaced
      have solid := @bound.isBlank_eq_false_of_mem d (by simp [name])
      rw [clauseAt.blank d List.mem_cons_self] at solid
      cases solid

theorem isTyping_displayOf (typed : Option Spacing) :
    IsTyping (displayOf (typeSegments typed)) := by
  cases typed with
  | none => exact .inl rfl
  | some space =>
    exact .inr ⟨space.display, by simp [typeSegments],
      ⟨space.display_ne_nil, fun _ => Spacing.isBlank_of_mem_display⟩⟩

/-- What stands in a re-export before its list or star. -/
def exportHead (typed : Option Spacing) (leading : Layout) : List Char :=
  "export".toList ++ (displayOf (typeSegments typed) ++ leading.display)

-- the equation is stated as one that does not evaluate the word
theorem exportHead_eq (typed : Option Spacing) (leading : Layout) : exportHead typed leading =
    "export".toList ++ (displayOf (typeSegments typed) ++ leading.display) :=
  rfl

theorem mem_exportHead {typed : Option Spacing} {leading : Layout} {c : Char}
    (member : c ∈ exportHead typed leading) :
    Text.isBlank c = true ∨ c ∈ "export".toList ++ "type".toList := by
  rw [exportHead_eq] at member
  rcases List.mem_append.mp member with member | member
  · exact .inr (List.mem_append_left _ member)
  rcases List.mem_append.mp member with member | member
  · exact ((isTyping_displayOf typed).isBlank_or_mem member).imp_right (List.mem_append_right _)
  · exact .inl (Layout.isBlank_of_mem_display member)

/-- A character outside blanks and the words of a re-export is not in front of its list or star. -/
theorem not_mem_exportHead {c : Char} (solid : Text.isBlank c = false)
    (other : c ∉ "export".toList ++ "type".toList) (typed : Option Spacing) (leading : Layout) :
    c ∉ exportHead typed leading := by
  intro member
  rcases mem_exportHead member with blank | word
  · rw [blank] at solid
    cases solid
  · exact other word

namespace Statement

theorem shownStart_reexports (typed : Option Spacing) (leading : Layout) (target : Target)
    (gap : Layout) (source : Quoted) :
    (reexports typed leading target gap source).shownStart =
      exportHead typed leading ++ displayOf target.segments ++ ("from".toList ++ gap.display) ++
        [source.quote.char] := by
  simp [shownStart, opening, exportHead_eq, Statement.source]

/-- A keyword that is read inside a re-export is read in its list, and the clause ends with the
closing brace. -/
theorem ofClause_of_exportHead_append {typed : Option Spacing} {leading : Layout} {target : Target}
    {number : Nat} {front lead clause : List Char} (clauseAt : ClauseAt number lead clause)
    (keyword : 'i' ∈ front)
    (same : exportHead typed leading ++ displayOf target.segments = front ++ (lead ++ clause)) :
    ofClause clause = [] := by
  have noHead : 'i' ∉ exportHead typed leading := not_mem_exportHead (by decide) (by decide) _ _
  cases target with
  | list slots trailing =>
    have whole : front ++ lead ++ clause =
        exportHead typed leading ++ '{' :: listText slots ++ '}' :: trailing.display := by
      simpa [Target.displayOf_list] using same.symm
    obtain ⟨inner, opened, rfl⟩ := clauseAt.exists_of_append_eq
      (fun _ => Layout.isBlank_of_mem_display) whole
    have first := clauseAt.head?_isBlank []
    refine ofClause_eq_nil ?_ ?_ fun _ => Layout.isBlank_of_mem_display
    · -- the keyword is behind the opening brace, so the clause is part of the list
      have split :
          exportHead typed leading ++ ['{'] ++ listText slots = front ++ lead ++ inner := by
        simpa using opened
      rcases List.append_eq_append_iff.mp split with ⟨more, -, list⟩ | ⟨more, wrong, -⟩
      · intro c member
        exact isMark_eq_false_of_isListed
          (isListed_of_mem_listText (list ▸ List.mem_append_right more member))
      · have absent : 'i' ∉ exportHead typed leading ++ ['{'] := by simpa using noHead
        rw [wrong] at absent
        exact absurd keyword fun member => absent (by simp [member])
    · cases inner with
      | nil => rfl
      | cons c inner => exact first
  | star before after bound trailing =>
    have noWords : 'i' ∉ exportHead typed leading ++
        '*' :: (before.display ++ ("as".toList ++ after.display)) := by
      simp only [List.mem_append, List.mem_cons, not_or]
      refine ⟨noHead, by decide, ?_, by decide, ?_⟩
      · exact fun member => absurd (Layout.isBlank_of_mem_display member) (by decide)
      · exact fun member => absurd (Spacing.isBlank_of_mem_display member) (by decide)
    have split : exportHead typed leading ++
        '*' :: (before.display ++ ("as".toList ++ after.display)) ++
          (bound.text ++ trailing.display) = front ++ (lead ++ clause) := by
      simpa [Target.displayOf_star] using same
    rcases List.append_eq_append_iff.mp split with ⟨more, -, behind⟩ | ⟨more, wrong, -⟩
    · exact absurd behind (clauseAt.ne_of_bindable bound (fun _ => Spacing.isBlank_of_mem_display))
    · rw [wrong] at noWords
      exact absurd (List.mem_append_left more keyword) noWords

/-- A re-export imports nothing. -/
theorem finds_nil_reexports (typed : Option Spacing) (leading : Layout) (target : Target)
    (gap : Layout) (source : Quoted) :
    Finds importStatement ofImport (reexports typed leading target gap source).shownStart [] := by
  refine finds_nil (getLast?_isWord_shownStart _) ?_
  intro front tail back before piece rest captures split nonempty same spells
  have quote := isQuote_char source.quote
  have blank : ∀ c ∈ gap.display, Text.isBlank c = true := fun _ => Layout.isBlank_of_mem_display
  have unquoted : ∀ c ∈ exportHead typed leading ++ displayOf target.segments,
      isQuote c = false := by
    intro c member
    rcases List.mem_append.mp member with member | member
    · rcases mem_exportHead member with blank | word
      · exact isQuote_eq_false_of_isBlank blank
      · exact (by decide : ∀ c ∈ "export".toList ++ "type".toList, isQuote c = false) c word
    · exact isQuote_eq_false_of_isClauseChar (Target.isClauseChar_of_mem member)
  rw [shownStart_reexports] at split
  obtain ⟨typed', number, lead, clause, pad, more, read, clauseAt, padded, rfl, rfl⟩ :=
    eq_of_spells_importStatement (isQuote_eq_false_of_mem_from unquoted blank) quote split nonempty
      same spells
  have whole : exportHead typed leading ++ displayOf target.segments ++
      ("from".toList ++ gap.display) =
        front ++ ("import".toList ++ (typed' ++ (lead ++ clause))) ++ ("from".toList ++ pad) := by
    simpa using read
  -- An import that is read here reads the end of the re-export as its clause, and that clause binds
  -- nothing.
  obtain ⟨opened, -⟩ := eq_of_from blank padded whole
  have behind : exportHead typed leading ++ displayOf target.segments =
      front ++ ("import".toList ++ typed') ++ (lead ++ clause) := by
    simpa using opened
  refine ⟨Nat.le_refl _, fun index => ?_⟩
  rw [clauseAt.ofImport]
  exact ofClause_of_exportHead_append clauseAt (by simp) behind

/-- An import without a clause imports nothing. -/
theorem finds_nil_effect (gap : Layout) (source : Quoted) :
    Finds importStatement ofImport (effect gap source).shownStart [] := by
  refine finds_nil (getLast?_isWord_shownStart _) ?_
  intro front tail back before piece rest captures split nonempty same spells
  have absent : 'f' ∉ "import".toList ++ gap.display := by
    simp only [List.mem_append, not_or]
    exact ⟨by decide, fun member => absurd (Layout.isBlank_of_mem_display member) (by decide)⟩
  have unquoted : ∀ c ∈ "import".toList ++ gap.display, isQuote c = false := by
    intro c member
    rcases List.mem_append.mp member with member | member
    · exact (by decide : ∀ c ∈ "import".toList, isQuote c = false) c member
    · exact isQuote_eq_false_of_isBlank (Layout.isBlank_of_mem_display member)
  have shown : (effect gap source).shownStart =
      "import".toList ++ gap.display ++ [source.quote.char] := by
    simp [shownStart, opening, Statement.source]
  rw [shown] at split
  obtain ⟨typed, number, lead, clause, pad, more, read, -⟩ :=
    eq_of_spells_importStatement unquoted (isQuote_char source.quote) split nonempty same spells
  rw [read] at absent
  simp at absent

theorem starts_importStatement : ∀ c, importStatement.starts c = true → c = 'i' := by
  simp [importStatement_eq, wordEdge, text, exactly, all, starts, nullable]

theorem shownStart_everything (leading trailing gap : Layout) (source : Quoted) :
    (everything leading trailing gap source).shownStart = exportHead none leading ++
      ('*' :: (trailing.display ++ ("from".toList ++ gap.display)) ++ [source.quote.char]) := by
  simp [shownStart, opening, exportHead_eq, typeSegments, Statement.source]

theorem finds_nil_everything (leading trailing gap : Layout) (source : Quoted) :
    Finds importStatement ofImport (everything leading trailing gap source).shownStart [] := by
  refine finds_nil_of_not_mem rfl starts_importStatement ?_ (getLast?_isWord_shownStart _)
  rw [shownStart_everything]
  simp only [List.mem_append, List.mem_cons, not_or]
  refine ⟨not_mem_exportHead (by decide) (by decide) _ _, ⟨by decide, ?_, by decide, ?_⟩, ?_,
    by simp⟩
  · exact fun member => absurd (Layout.isBlank_of_mem_display member) (by decide)
  · exact fun member => absurd (Layout.isBlank_of_mem_display member) (by decide)
  · cases source.quote <;> decide

/-- Behind the opening quote of its module a statement says nothing. -/
theorem finds_shownEnd {pattern : Pattern Char} {read : Match Char → List String} {first : Char}
    (needs : pattern.nullable = false) (heads : ∀ c, pattern.starts c = true → c = first)
    (solid : Text.isBlank first = false) (other : first ∉ ['\\', '\'', '"'])
    (statement : Statement) : Finds pattern read statement.shownEnd [] := by
  refine finds_nil_of_not_mem needs heads (fun member => ?_) statement.getLast?_isWord_shownEnd
  rcases mem_shownEnd member with blank | mark
  · rw [blank] at solid
    cases solid
  · exact other mark

/-- Searched for imports, a statement says the names that it imports. -/
theorem finds_importStatement (statement : Statement) :
    Finds importStatement ofImport (displayOf statement.segments) statement.imported := by
  have ending : Finds importStatement ofImport statement.shownEnd [] :=
    finds_shownEnd rfl starts_importStatement (by decide) (by decide) statement
  rw [statement.displayOf_segments, ← List.append_nil statement.imported]
  refine Finds.append ?_ ending
  cases statement with
  | effect gap source => exact finds_nil_effect gap source
  | imports typed clause gap source => exact finds_imports typed clause gap source
  | reexports typed leading target gap source =>
    exact finds_nil_reexports typed leading target gap source
  | everything leading trailing gap source => exact finds_nil_everything leading trailing gap source

end Statement

end ImportSupply.Binding
