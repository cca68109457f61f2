import ImportSupply.Proofs.Binding.ClauseReading
import ImportSupply.Proofs.ImportBlock.ReadBack
import ImportSupply.Proofs.Pattern.Finding

/-!
# What import statements are read as

An import pattern spells a keyword, perhaps the word `type`, a clause, the word `from` and a quote
(`spells_importWith`). The clause that a match reads is fixed by the first quote behind its keyword
(`eq_of_stretch`): up to that quote a text ends in one way with the word `from` and blanks, so
clauses that contain the words `from`, `type`, `as` or `import` are read as a whole
(`exists_matchAt_importWith`).
-/

namespace ImportSupply.Binding

open Literal Pattern

/-! ## What an import spells -/

def isQuote (c : Char) : Bool :=
  c == '\'' || c == '"'

theorem isQuote_iff {c : Char} : isQuote c = true ↔ c = '\'' ∨ c = '"' := by
  rw [isQuote, Bool.or_eq_true, beq_iff_eq, beq_iff_eq]

/-- The word `type` behind the keyword of a statement. -/
def typeWord : Pattern Char :=
  all [gap, text "type", wordEdge]

/-- An import with a pattern for what stands between its keyword and its clause. -/
def importWith (typing : Pattern Char) : Pattern Char :=
  seq wordEdge (seq (text "import") (seq typing (seq (either bracedClause namedClause) clauseEnd)))

theorem importStatement_eq_importWith : importStatement = importWith (maybe typeWord) :=
  rfl

/-- What may stand behind the keyword of a statement: the word `type`, or nothing. -/
def IsTyping (typed : List Char) : Prop :=
  typed = [] ∨ ∃ space, typed = space ++ "type".toList ∧ IsGap space

theorem IsTyping.isBlank_or_mem {typed : List Char} (typing : IsTyping typed) {c : Char}
    (member : c ∈ typed) : Text.isBlank c = true ∨ c ∈ "type".toList := by
  rcases typing with rfl | ⟨space, rfl, isGap⟩
  · cases member
  rcases List.mem_append.mp member with member | member
  · exact .inl (isGap.2 c member)
  · exact .inr member

/-- The clause of an import, the blanks before it and the group that remembers it. -/
structure ClauseAt (number : Nat) (lead clause : List Char) : Prop where
  blank : ∀ c ∈ lead, Text.isBlank c = true
  inside : ∀ c ∈ clause, isClauseChar c = true
  begins : number = 1 ∧ clause.head?.any isMark = true ∨
    number = 2 ∧ lead ≠ [] ∧ clause.head?.any Name.isHead = true

section

variable {before : Option Char} {piece rest : List Char} {captures : List (Capture Char)}

theorem isClauseChar_of_isMark {c : Char} (mark : isMark c = true) : isClauseChar c = true := by
  rcases isMark_iff.mp mark with rfl | rfl <;> decide

theorem isClauseChar_of_isTail {c : Char} (tail : Name.isTail c = true) :
    isClauseChar c = true := by
  by_contra outside
  simp only [isClauseChar, Bool.not_eq_true', Bool.not_eq_false, Bool.or_eq_true,
    beq_iff_eq] at outside
  rcases outside with ((((rfl | rfl) | rfl) | rfl) | rfl) | rfl <;> exact absurd tail (by decide)

theorem ClauseAt.ne_nil {number : Nat} {lead clause : List Char}
    (clauseAt : ClauseAt number lead clause) : clause ≠ [] := by
  rintro rfl
  rcases clauseAt.begins with ⟨-, begins⟩ | ⟨-, -, begins⟩ <;> cases begins

theorem ClauseAt.lastOf_append {number : Nat} {lead clause : List Char}
    (clauseAt : ClauseAt number lead clause) (before : Option Char) :
    lastOf before (lead ++ clause) = clause.getLast? := by
  rw [lastOf, List.getLast?_append_of_ne_nil _ clauseAt.ne_nil,
    List.getLast?_eq_some_getLast clauseAt.ne_nil, Option.some_or]

theorem ClauseAt.head?_isBlank {number : Nat} {lead clause : List Char}
    (clauseAt : ClauseAt number lead clause) (rest : List Char) :
    (clause ++ rest).head?.any Text.isBlank = false := by
  cases clause with
  | nil => rcases clauseAt.begins with ⟨-, begins⟩ | ⟨-, -, begins⟩ <;> cases begins
  | cons c more =>
    show Text.isBlank c = false
    rcases clauseAt.begins with ⟨-, marked⟩ | ⟨-, -, head⟩
    · rcases isMark_iff.mp marked with rfl | rfl <;> decide
    · exact Name.isBlank_eq_false_of_isTail (Name.isTail_of_isHead head)

/-- A remembered clause: a first character of a class, then what a clause may hold. -/
theorem spells_clauseGroup {number : Nat} {first : Char → Bool}
    (clausal : ∀ c, first c = true → isClauseChar c = true) :
    (group number (seq (one first) (few isClauseChar))).Spells before piece rest captures ↔
      (∀ c ∈ piece, isClauseChar c = true) ∧ piece.head?.any first = true ∧
        captures = [⟨number, piece ++ rest, piece.length⟩] := by
  simp only [Spells]
  constructor
  · rintro ⟨_, ⟨_, more, _, _, ⟨⟨c, accepted, rfl⟩, rfl⟩, ⟨inside, rfl⟩, rfl, rfl⟩, rfl⟩
    exact ⟨by simpa [clausal c accepted] using inside, accepted, rfl⟩
  · rintro ⟨inside, accepted, rfl⟩
    cases piece with
    | nil => cases accepted
    | cons c more =>
      have others : ∀ d ∈ more, isClauseChar d = true := fun d member =>
        inside d (List.mem_cons_of_mem c member)
      exact ⟨[], ⟨[c], more, [], [], ⟨⟨c, accepted, rfl⟩, rfl⟩, ⟨others, rfl⟩, rfl, rfl⟩, rfl⟩

theorem spells_clause :
    (either bracedClause namedClause).Spells before piece rest captures ↔
      ∃ number lead clause, piece = lead ++ clause ∧ ClauseAt number lead clause ∧
        captures = [⟨number, clause ++ rest, clause.length⟩] := by
  have marked : ∀ c, (c == '{' || c == '*') = true → isClauseChar c = true :=
    fun _ => isClauseChar_of_isMark
  have named : ∀ c, Name.isHead c = true → isClauseChar c = true :=
    fun _ head => isClauseChar_of_isTail (Name.isTail_of_isHead head)
  have bracedParts : bracedClause =
      seq blanks (group 1 (seq (one fun c => c == '{' || c == '*') (few isClauseChar))) := rfl
  have namedParts : namedClause =
      seq gap (group 2 (seq (one Name.isHead) (few isClauseChar))) := rfl
  rw [Spells, bracedParts, namedParts, Spells, Spells]
  simp only [spells_gap, spells_blanks, spells_clauseGroup marked, spells_clauseGroup named]
  constructor
  · rintro (⟨lead, clause, _, _, ⟨blank, -, rfl⟩, ⟨inside, mark, rfl⟩, rfl, rfl⟩ |
      ⟨lead, clause, _, _, ⟨isGap, -, rfl⟩, ⟨inside, head, rfl⟩, rfl, rfl⟩)
    · exact ⟨1, lead, clause, rfl, ⟨blank, inside, .inl ⟨rfl, mark⟩⟩, rfl⟩
    · exact ⟨2, lead, clause, rfl, ⟨isGap.2, inside, .inr ⟨rfl, isGap.1, head⟩⟩, rfl⟩
  · rintro ⟨_, lead, clause, rfl, clauseAt, rfl⟩
    have stops := clauseAt.head?_isBlank rest
    obtain ⟨blank, inside, ⟨rfl, mark⟩ | ⟨rfl, nonempty, head⟩⟩ := clauseAt
    · exact .inl ⟨lead, clause, [], _, ⟨blank, stops, rfl⟩, ⟨inside, mark, rfl⟩, rfl, rfl⟩
    · exact .inr ⟨lead, clause, [], _, ⟨⟨nonempty, blank⟩, stops, rfl⟩, ⟨inside, head, rfl⟩, rfl,
        rfl⟩

theorem spells_clauseEnd :
    clauseEnd.Spells before piece rest captures ↔
      ∃ pad mark, piece = "from".toList ++ (pad ++ [mark]) ∧ before.any Text.isWord = false ∧
        (∀ c ∈ pad, Text.isBlank c = true) ∧ isQuote mark = true ∧ captures = [] := by
  simp only [clauseEnd, spells_all_cons, spells_all_nil, Spells, spells_wordEdge, spells_text,
    spells_blanks, quote]
  constructor
  · rintro ⟨_, _, _, _, ⟨edge, rfl, rfl⟩, ⟨_, _, _, _, ⟨rfl, rfl⟩, ⟨pad, _, _, _, ⟨blank, -, rfl⟩,
      ⟨_, _, _, _, ⟨⟨mark, isQuote, rfl⟩, rfl⟩, ⟨rfl, rfl⟩, rfl, rfl⟩, rfl, rfl⟩, rfl, rfl⟩, rfl,
      rfl⟩
    refine ⟨pad, mark, by simp, ?_, blank, isQuote, by simp⟩
    have edge : before.any Text.isWord ≠ true := edge
    simpa using edge
  · rintro ⟨pad, mark, rfl, outside, blank, isQuote, rfl⟩
    have stops : Text.isBlank mark = false := by
      rcases isQuote_iff.mp isQuote with rfl | rfl <;> decide
    refine ⟨[], _, [], [], ⟨?_, rfl, rfl⟩, ⟨_, pad ++ [mark], [], [], ⟨rfl, rfl⟩, ⟨pad, [mark], [],
      [], ⟨blank, by simpa using stops, rfl⟩, ⟨[mark], [], [], [], ⟨⟨mark, isQuote, rfl⟩, rfl⟩,
        ⟨rfl, rfl⟩, rfl, rfl⟩, rfl, rfl⟩, rfl, rfl⟩, rfl, rfl⟩
    rw [outside]
    exact Bool.false_ne_true

theorem passes_typeWord : Passes typeWord fun piece rest =>
    ∃ space, piece = space ++ "type".toList ∧ IsGap space ∧ rest.head?.any Text.isWord = false := by
  intro before piece rest captures
  simp only [typeWord, spells_all_cons, spells_all_nil, Spells, spells_gap, spells_text,
    spells_wordEdge]
  constructor
  · rintro ⟨space, _, _, _, ⟨isGap, -, rfl⟩, ⟨_, _, _, _, ⟨rfl, rfl⟩, ⟨_, _, _, _,
      ⟨edge, rfl, rfl⟩, ⟨rfl, rfl⟩, rfl, rfl⟩, rfl, rfl⟩, rfl, rfl⟩
    refine ⟨⟨space, by simp, isGap, ?_⟩, by simp⟩
    have edge : true ≠ rest.head?.any Text.isWord := edge
    simpa using edge.symm
  · rintro ⟨⟨space, rfl, isGap, outside⟩, rfl⟩
    refine ⟨space, _, [], [], ⟨isGap, rfl, rfl⟩, ⟨_, [], [], [], ⟨rfl, rfl⟩, ⟨[], [], [], [],
      ⟨?_, rfl, rfl⟩, ⟨rfl, rfl⟩, rfl, rfl⟩, rfl, rfl⟩, by simp, rfl⟩
    show true ≠ rest.head?.any Text.isWord
    rw [outside]
    exact Bool.noConfusion

theorem passes_maybe_typeWord : Passes (maybe typeWord) fun piece rest =>
    IsTyping piece ∧ (piece ≠ [] → rest.head?.any Text.isWord = false) := by
  refine passes_typeWord.maybe.congr fun piece rest => ?_
  constructor
  · rintro (⟨space, rfl, isGap, outside⟩ | rfl)
    · exact ⟨.inr ⟨space, rfl, isGap⟩, fun _ => outside⟩
    · exact ⟨.inl rfl, fun nonempty => absurd rfl nonempty⟩
  · rintro ⟨rfl | ⟨space, rfl, isGap⟩, outside⟩
    · exact .inr rfl
    · exact .inl ⟨space, rfl, isGap, outside (by simp)⟩

/-- What an import spells: its keyword, perhaps the word `type`, its clause, the word `from` and the
quote of a module. -/
theorem spells_importWith {typing : Pattern Char} {passed : List Char → List Char → Prop}
    (passes : Passes typing passed) :
    (importWith typing).Spells before piece rest captures ↔
      ∃ typed number lead clause pad mark,
        piece = "import".toList ++ (typed ++ (lead ++ (clause ++
          ("from".toList ++ (pad ++ [mark]))))) ∧
        before.any Text.isWord = false ∧
        passed typed (lead ++ (clause ++ ("from".toList ++ (pad ++ mark :: rest)))) ∧
        ClauseAt number lead clause ∧ clause.getLast?.any Text.isWord = false ∧
        (∀ c ∈ pad, Text.isBlank c = true) ∧ isQuote mark = true ∧
        captures =
          [⟨number, clause ++ ("from".toList ++ (pad ++ mark :: rest)), clause.length⟩] := by
  simp only [importWith, spells_seq, spells_wordEdge, spells_text, passes _ _ _ _, spells_clause,
    spells_clauseEnd]
  constructor
  · rintro ⟨_, _, _, _, ⟨edge, rfl, rfl⟩, ⟨_, _, _, _, ⟨rfl, rfl⟩, ⟨typed, _, _, _, ⟨own, rfl⟩,
      ⟨_, _, _, _, ⟨number, lead, clause, rfl, clauseAt, rfl⟩, ⟨pad, mark, rfl, outside, blank,
        isQuote, rfl⟩, rfl, rfl⟩, rfl, rfl⟩, rfl, rfl⟩, rfl, rfl⟩
    have edge : before.any Text.isWord ≠ true := edge
    rw [clauseAt.lastOf_append] at outside
    exact ⟨typed, number, lead, clause, pad, mark, by simp, by simpa using edge, by simpa using own,
      clauseAt, outside, blank, isQuote, by simp⟩
  · rintro ⟨typed, number, lead, clause, pad, mark, rfl, outside, own, clauseAt, edge, blank,
      isQuote, rfl⟩
    refine ⟨[], _, [], _, ⟨?_, rfl, rfl⟩, ⟨_, _, [], _, ⟨rfl, rfl⟩, ⟨typed, _, [], _, ⟨?_, rfl⟩,
      ⟨lead ++ clause, _, _, [], ⟨number, lead, clause, rfl, clauseAt, rfl⟩, ⟨pad, mark, rfl, ?_,
        blank, isQuote, rfl⟩, rfl, rfl⟩, by simp, rfl⟩, rfl, rfl⟩, rfl, by simp⟩
    · rw [outside]
      exact Bool.false_ne_true
    · simpa using own
    · rw [clauseAt.lastOf_append]
      exact edge

end

/-! ## The way to the first quote -/

theorem isQuote_eq_false_of_isBlank {c : Char} (blank : Text.isBlank c = true) :
    isQuote c = false := by
  by_contra quote
  rcases isQuote_iff.mp (Bool.not_eq_false _ ▸ quote) with rfl | rfl <;>
    exact absurd blank (by decide)

theorem isQuote_eq_false_of_isClauseChar {c : Char} (inside : isClauseChar c = true) :
    isQuote c = false := by
  by_contra quote
  rcases isQuote_iff.mp (Bool.not_eq_false _ ▸ quote) with rfl | rfl <;>
    exact absurd inside (by decide)

/-- A text has one first quote. -/
theorem eq_of_quote {front front' rest rest' : List Char} {mark mark' : Char}
    (unquoted : ∀ c ∈ front, isQuote c = false) (unquoted' : ∀ c ∈ front', isQuote c = false)
    (quote : isQuote mark = true) (quote' : isQuote mark' = true)
    (same : front ++ mark :: rest = front' ++ mark' :: rest') :
    front = front' ∧ mark = mark' ∧ rest = rest' := by
  obtain ⟨rfl, ending⟩ := @Text.eq_of_append_run (!isQuote ·) _ _ _ _ (by simpa using unquoted)
    (by simp [quote]) (by simpa using unquoted') (by simp [quote']) same
  exact ⟨rfl, List.cons.inj ending⟩

/-- A text ends in one way with the word `from` and blanks. -/
theorem eq_of_from {front front' pad pad' : List Char}
    (blank : ∀ c ∈ pad, Text.isBlank c = true) (blank' : ∀ c ∈ pad', Text.isBlank c = true)
    (same : front ++ ("from".toList ++ pad) = front' ++ ("from".toList ++ pad')) :
    front = front' ∧ pad = pad' := by
  -- read from the end, the blanks are a run and the word stands behind them
  have reversed : pad.reverse ++ ("morf".toList ++ front.reverse) =
      pad'.reverse ++ ("morf".toList ++ front'.reverse) := by
    simpa using congrArg List.reverse same
  obtain ⟨pads, fronts⟩ := Text.eq_of_append_run (by simpa using blank) rfl
    (by simpa using blank') rfl reversed
  exact ⟨List.reverse_injective (List.append_cancel_left fronts), List.reverse_injective pads⟩

theorem isQuote_eq_false_of_mem_from {front pad : List Char}
    (unquoted : ∀ c ∈ front, isQuote c = false) (blank : ∀ c ∈ pad, Text.isBlank c = true) :
    ∀ c ∈ front ++ ("from".toList ++ pad), isQuote c = false := by
  intro c member
  rcases List.mem_append.mp member with member | member
  · exact unquoted c member
  rcases List.mem_append.mp member with member | member
  · exact (by decide : ∀ c ∈ "from".toList, isQuote c = false) c member
  · exact isQuote_eq_false_of_isBlank (blank c member)

/-- Up to its first quote a text ends in one way with the word `from` and blanks. -/
theorem eq_of_stretch {front front' pad pad' rest rest' : List Char} {mark mark' : Char}
    (unquoted : ∀ c ∈ front, isQuote c = false) (unquoted' : ∀ c ∈ front', isQuote c = false)
    (blank : ∀ c ∈ pad, Text.isBlank c = true) (blank' : ∀ c ∈ pad', Text.isBlank c = true)
    (quote : isQuote mark = true) (quote' : isQuote mark' = true)
    (same : front ++ ("from".toList ++ (pad ++ mark :: rest)) =
      front' ++ ("from".toList ++ (pad' ++ mark' :: rest'))) :
    front = front' ∧ pad = pad' ∧ mark = mark' ∧ rest = rest' := by
  have whole : front ++ ("from".toList ++ pad) ++ mark :: rest =
      front' ++ ("from".toList ++ pad') ++ mark' :: rest' := by
    simpa only [List.append_assoc] using same
  obtain ⟨opening, rfl, rfl⟩ := eq_of_quote (isQuote_eq_false_of_mem_from unquoted blank)
    (isQuote_eq_false_of_mem_from unquoted' blank') quote quote' whole
  obtain ⟨rfl, rfl⟩ := eq_of_from blank blank' opening
  exact ⟨rfl, rfl, rfl, rfl⟩

/-- The clause that a stretch of text is read with, if nothing else stands in front of it. -/
theorem ClauseAt.eq_of_append {number number' : Nat} {lead lead' clause clause' : List Char}
    (clauseAt : ClauseAt number lead clause) (clauseAt' : ClauseAt number' lead' clause')
    (same : lead ++ clause = lead' ++ clause') : lead = lead' ∧ clause = clause' := by
  have stops := clauseAt.head?_isBlank []
  have stops' := clauseAt'.head?_isBlank []
  rw [List.append_nil] at stops stops'
  exact Text.eq_of_append_run clauseAt.blank stops clauseAt'.blank stops' same

theorem ClauseAt.isQuote_eq_false {number : Nat} {lead clause : List Char}
    (clauseAt : ClauseAt number lead clause) : ∀ c ∈ lead ++ clause, isQuote c = false := by
  intro c member
  rcases List.mem_append.mp member with member | member
  · exact isQuote_eq_false_of_isBlank (clauseAt.blank c member)
  · exact isQuote_eq_false_of_isClauseChar (clauseAt.inside c member)

/-! ## One match -/

theorem ClauseAt.ofImport {number : Nat} {lead clause : List Char}
    (clauseAt : ClauseAt number lead clause) (index length : Nat) (rest : List Char) :
    ofImport ⟨index, length, [⟨number, clause ++ rest, clause.length⟩]⟩ = ofClause clause := by
  rcases clauseAt.begins with ⟨rfl, -⟩ | ⟨rfl, -⟩ <;>
    simp [Binding.ofImport, Match.piece?, Capture.piece]

/-- At its keyword an import is read with the word `type` if it can be, and without it if not. -/
theorem matchAt_importStatement {before : Option Char} (outside : before.any Text.isWord = false)
    (index : Nat) (rest : List Char) :
    importStatement.matchAt ⟨before, index, "import".toList ++ rest⟩ =
      ((importWith typeWord).matchAt ⟨before, index, "import".toList ++ rest⟩).or
        ((importWith nothing).matchAt ⟨before, index, "import".toList ++ rest⟩) := by
  have behind (typing : Pattern Char) :
      (importWith typing).matchAt ⟨before, index, "import".toList ++ rest⟩ =
        (seq typing (seq (either bracedClause namedClause) clauseEnd)).run
          ⟨lastOf before "import".toList, index + "import".toList.length, rest⟩ []
          fun after captures => some ⟨index, after.index - index, captures⟩ := by
    rw [matchAt, importWith, run_seq,
      run_wordEdge_append outside (by decide) (by decide), run_seq, run_text_append]
  rw [importStatement_eq_importWith, behind, behind, behind, maybe, run_seq, run_either]
  rfl

/-- Where an import can be read with a clause, the match has that clause, if what stands between the
keyword and the clause can be read in one way only. -/
theorem exists_matchAt_importWith {typing : Pattern Char} {passed : List Char → List Char → Prop}
    (passes : Passes typing passed)
    (unique : ∀ typed typed' back back', passed typed back → passed typed' back' →
      typed ++ back = typed' ++ back' → typed = typed')
    {before : Option Char} (outside : before.any Text.isWord = false)
    {typed lead clause pad : List Char} {number : Nat} {mark : Char} (rest : List Char)
    (own : passed typed (lead ++ (clause ++ ("from".toList ++ (pad ++ mark :: rest)))))
    (clauseAt : ClauseAt number lead clause) (edge : clause.getLast?.any Text.isWord = false)
    (blank : ∀ c ∈ pad, Text.isBlank c = true) (quote : isQuote mark = true) (index : Nat) :
    ∃ found, (importWith typing).matchAt ⟨before, index, "import".toList ++ (typed ++ (lead ++
        (clause ++ ("from".toList ++ (pad ++ mark :: rest)))))⟩ = some found ∧
      found.length = ("import".toList ++ (typed ++ (lead ++ (clause ++
        ("from".toList ++ (pad ++ [mark])))))).length ∧
      ofImport found = ofClause clause := by
  have spells := (spells_importWith passes).mpr ⟨typed, number, lead, clause, pad, mark, rfl,
    outside, own, clauseAt, edge, blank, quote, rfl⟩
  obtain ⟨found, starts⟩ := @exists_matchAt_of_spells _ _
    ⟨before, index, "import".toList ++ (typed ++ (lead ++ (clause ++ ("from".toList ++
      (pad ++ mark :: rest)))))⟩ _ _ _ (by simp) spells
  refine ⟨found, starts, ?_⟩
  -- The match need not spell the import the same way; that it does follows from the quote, which
  -- neither clause has.
  obtain ⟨piece, rest', captures, same, spells', rfl⟩ := exists_spells_of_matchAt starts
  obtain ⟨typed', number', lead', clause', pad', mark', rfl, -, own', clauseAt', -, blank', quote',
    rfl⟩ := (spells_importWith passes).mp spells'
  have behind : typed ++ (lead ++ (clause ++ ("from".toList ++ (pad ++ mark :: rest)))) =
      typed' ++ (lead' ++ (clause' ++ ("from".toList ++ (pad' ++ mark' :: rest')))) := by
    simpa using same
  obtain rfl := unique _ _ _ _ own own' behind
  have stretch : lead ++ clause ++ ("from".toList ++ (pad ++ mark :: rest)) =
      lead' ++ clause' ++ ("from".toList ++ (pad' ++ mark' :: rest')) := by
    simpa only [List.append_assoc] using List.append_cancel_left behind
  obtain ⟨clauses, rfl, rfl, rfl⟩ := eq_of_stretch clauseAt.isQuote_eq_false
    clauseAt'.isQuote_eq_false blank blank' quote quote' stretch
  obtain ⟨rfl, rfl⟩ := clauseAt.eq_of_append clauseAt' clauses
  exact ⟨rfl, clauseAt'.ofImport _ _ _⟩

end ImportSupply.Binding
