import ImportSupply.Proofs.Binding.Names
import ImportSupply.Proofs.ImportBlock.Clause
import ImportSupply.Proofs.Pattern.Run

/-!
# Reading import lines back

Searched for import statements, import lines in front of a script give one match each, up to the
quote of the line's module, and then the script gives its own (`flatMap_ofImport_shownLines`). The
clause of a match is the line's clause: the shortest run of clause characters cannot stop at an
earlier `from`, since behind that one no quote comes before the closing brace.
-/

namespace ImportSupply

open Pattern

namespace Binding

/-- The part of an import statement behind its clause. -/
def clauseEnd : Pattern Char :=
  all [wordEdge, text "from", blanks, quote]

/-- A clause that starts with a brace or a star, remembered. -/
def bracedClause : Pattern Char :=
  all [blanks, group 1 (seq (one fun c => c == '{' || c == '*') (few isClauseChar))]

/-- A clause that starts with a name, remembered. -/
def namedClause : Pattern Char :=
  all [gap, group 2 (seq (one Name.isHead) (few isClauseChar))]

theorem importStatement_eq :
    importStatement = seq wordEdge (seq (text "import") (seq maybeType
      (seq (either bracedClause namedClause) clauseEnd))) :=
  rfl

/-- Before a closing brace, without a quote on the way to it, no clause ends. -/
theorem stuck_clauseEnd {accept : Char → Bool} (noQuote : ∀ c ∈ ['\'', '"'], accept c = false)
    (back : List Char) : Stuck (Before accept '}' back) clauseEnd :=
  stuck_all [wordEdge, text "from", blanks] [] (by decide)
    (stuck_before ['\'', '"'] rfl (by simp [quote, starts]) noQuote (by decide) back)

theorem run_clauseEnd {β : Type} (index : Nat) (rest : List Char) (captures : List (Capture Char))
    (next : Place Char → List (Capture Char) → Option β) :
    clauseEnd.run ⟨some ' ', index, "from ".toList ++ '\'' :: rest⟩ captures next =
      next ⟨some '\'', index + 6, rest⟩ captures :=
  rfl

theorem run_maybeType_brace {β : Type} (before : Option Char) (index : Nat) (rest : List Char)
    (captures : List (Capture Char)) (next : Place Char → List (Capture Char) → Option β) :
    maybeType.run ⟨before, index, ' ' :: '{' :: rest⟩ captures next =
      next ⟨before, index, ' ' :: '{' :: rest⟩ captures :=
  rfl

/-- A statement of types has its word `type` passed, if what follows succeeds. -/
theorem run_maybeType_type {β : Type} {before : Option Char} {index : Nat} {rest : List Char}
    {captures : List (Capture Char)} {next : Place Char → List (Capture Char) → Option β}
    {result : β} (succeeds : next ⟨some 'e', index + 5, ' ' :: rest⟩ captures = some result) :
    maybeType.run ⟨before, index, " type".toList ++ ' ' :: rest⟩ captures next = some result :=
  run_either_of_some succeeds

end Binding

namespace ImportBlock

open Binding

/-- No word `from` inside the braces ends the clause. -/
theorem Line.Importable.skips_clauseEnd {line : Line} (importable : line.Importable) :
    clauseEnd.Skips (' ' :: line.list ++ " \x7d ".toList) := by
  have inBraces : clauseEnd.Skips ((' ' :: line.list ++ [' ']) ++ ['}']) := by
    refine @skips_of_stuck _ _ _ isListChar _ (stuck_clauseEnd (by decide)) fun c member => ?_
    simp only [List.cons_append, List.mem_cons, List.mem_append, List.not_mem_nil,
      or_false] at member
    rcases member with rfl | member | rfl
    · decide
    · exact line.isListChar_of_mem_list importable.nameable member
    · decide
  have behind : clauseEnd.Skips [' '] := skips_of_starts (by decide) (by decide)
  simpa using inBraces.append behind

theorem isClauseChar_of_isListChar {c : Char} (inside : isListChar c = true) :
    isClauseChar c = true := by
  rw [isClauseChar, Bool.not_eq_true']
  by_contra outside
  simp only [Bool.not_eq_false, Bool.or_eq_true, beq_iff_eq] at outside
  rcases outside with ((((rfl | rfl) | rfl) | rfl) | rfl) | rfl <;> exact absurd inside (by decide)

/-- The clause of a line is read up to its own end, and remembered whole. -/
theorem Line.Importable.run_clause {line : Line} (importable : line.Importable) {β : Type}
    {before : Option Char} {index : Nat} {rest : List Char}
    {next : Place Char → List (Capture Char) → Option β} {result : β}
    (succeeds : next ⟨some '\'', index + 1 + line.clause.length + 6, rest⟩
      [⟨1, line.clause ++ ("from ".toList ++ '\'' :: rest), line.clause.length⟩] = some result) :
    (seq (either bracedClause namedClause) clauseEnd).run
      ⟨before, index, ' ' :: (line.clause ++ ("from ".toList ++ '\'' :: rest))⟩ [] next =
        some result := by
  -- the clause starts with its brace, so the first alternative is taken
  refine run_either_of_some ?_
  have inside : ∀ c ∈ ' ' :: line.list ++ " \x7d ".toList, isClauseChar c = true := by
    intro c member
    simp only [List.cons_append, List.mem_cons, List.mem_append] at member
    rcases member with rfl | member | member
    · decide
    · exact isClauseChar_of_isListChar (line.isListChar_of_mem_list importable.nameable member)
    · revert c
      decide
  have length : line.clause.length = (' ' :: line.list ++ " \x7d ".toList).length + 1 := by
    simp [clause]
  have last : lastOf (some '{') (' ' :: line.list ++ " \x7d ".toList) = some ' ' := by
    rw [lastOf_append]
    rfl
  show runFew isClauseChar
    (fun after => clauseEnd.run after
      [⟨1, line.clause ++ ("from ".toList ++ '\'' :: rest), after.index - (index + 1)⟩] next)
    (some '{') (index + 1 + 1)
    ((' ' :: line.list ++ " \x7d ".toList) ++ ("from ".toList ++ '\'' :: rest)) = some result
  refine runFew_append inside (importable.skips_clauseEnd.failsAlong _ next _) ?_
  simp only
  rw [last, run_clauseEnd, Nat.add_assoc (index + 1) 1, Nat.add_comm 1, ← length,
    Nat.add_sub_cancel_left]
  exact succeeds

theorem Line.opening_eq (line : Line) :
    line.opening = line.keywords.toList ++ ' ' :: (line.clause ++ "from ".toList) := by
  simp [opening, clause]

/-- The match that a line gives, found at a place. -/
def Line.found (line : Line) (index : Nat) (rest : List Char) : Match Char :=
  ⟨index, line.opening.length + 1,
    [⟨1, line.clause ++ ("from ".toList ++ '\'' :: rest), line.clause.length⟩]⟩

/-- A line is found where it starts, outside a word. -/
theorem Line.Importable.matchAt_opening {line : Line} (importable : line.Importable)
    {before : Option Char} (edge : before.any Text.isWord = false) (index : Nat)
    (rest : List Char) :
    importStatement.matchAt ⟨before, index, line.opening ++ '\'' :: rest⟩ =
      some (line.found index rest) := by
  have word (tail : List Char) {β : Type} (next : Place Char → List (Capture Char) → Option β) :
      wordEdge.run ⟨before, index, "import".toList ++ tail⟩ [] next =
        next ⟨before, index, "import".toList ++ tail⟩ [] :=
    run_wordEdge edge (by decide) index _ [] next
  have length : line.opening.length + 1 =
      line.keywords.toList.length + 1 + line.clause.length + 6 := by
    have five : "from ".toList.length = 5 := rfl
    rw [line.opening_eq, List.length_append, List.length_cons, List.length_append, five]
    omega
  rw [matchAt, importStatement_eq, line.opening_eq, found, length]
  -- in a line of values the word `type` is tried and not found, in a line of types it is passed
  cases kind : line.isType with
  | false =>
    have keywords : line.keywords.toList = "import".toList := by simp [Line.keywords, kind]
    rw [keywords, List.append_assoc, run_seq, word, run_seq, run_text_append, run_seq,
      List.cons_append, List.append_assoc]
    refine (run_maybeType_brace _ _ _ _ _).trans (importable.run_clause (congrArg some ?_))
    congr 1
    dsimp only
    omega
  | true =>
    have keywords : line.keywords.toList = "import".toList ++ " type".toList := by
      simp [Line.keywords, kind]
    rw [keywords, List.append_assoc, List.append_assoc, run_seq, word, run_seq, run_text_append,
      run_seq, List.cons_append, List.append_assoc, List.length_append]
    refine run_maybeType_type (importable.run_clause (congrArg some ?_))
    have five : " type".toList.length = 5 := rfl
    congr 1
    dsimp only
    omega

theorem Line.Importable.ofImport_found {line : Line} (importable : line.Importable) (index : Nat)
    (rest : List Char) : ofImport (line.found index rest) = line.entries.map Entry.localName := by
  have piece : (line.found index rest).piece? 1 = some line.clause := by
    simp [found, Match.piece?, Capture.piece]
  rw [ofImport, piece]
  exact importable.ofClause_clause

/-! ## Searching lines -/

/-- Behind its opening quote a line has no character that a statement starts with. -/
theorem Line.skips_behind (line : Line) {pattern : Pattern Char} (needs : pattern.nullable = false)
    (wrong : ∀ c ∈ [' ', '\r', '\'', '\n'], pattern.starts c = false) :
    pattern.Skips line.behind :=
  skips_of_starts needs fun c member => wrong c (mem_of_mem_behind member)

theorem Line.lastOf_behind (line : Line) (before : Option Char) :
    lastOf before line.behind = some '\n' := by
  rw [behind, lastOf_append]
  rfl

/-- The match of a line ends with the opening quote of its module, and the search goes on behind
it. -/
theorem Line.Importable.matchesFrom_opening {line : Line} (importable : line.Importable)
    {before : Option Char} (edge : before.any Text.isWord = false) (index : Nat)
    (rest : List Char) :
    importStatement.matchesFrom 0 before index (line.opening ++ '\'' :: rest) =
      line.found index rest ::
        importStatement.matchesFrom 0 (some '\'') (index + (line.opening.length + 1)) rest := by
  have starts := importable.matchAt_opening edge index rest
  obtain ⟨c, opening, cons⟩ : ∃ c opening, line.opening = c :: opening :=
    List.exists_cons_of_ne_nil (by simp [Line.opening])
  have whole : line.opening ++ '\'' :: rest = c :: ((opening ++ ['\'']) ++ rest) := by
    simp [cons]
  have length : (line.found index rest).length - 1 = (opening ++ ['\'']).length := by
    simp [found, cons]
  have ends : index + 1 + (opening ++ ['\'']).length = index + (line.opening.length + 1) := by
    simp only [cons, List.length_append, List.length_cons, List.length_nil]
    omega
  rw [whole] at starts ⊢
  rw [matchesFrom, starts]
  simp only
  rw [length, matchesFrom_length, ends, lastOf_append]
  rfl

theorem Line.Importable.matchesFrom_shown {line : Line} (importable : line.Importable)
    {before : Option Char} (edge : before.any Text.isWord = false) (index : Nat)
    (rest : List Char) :
    importStatement.matchesFrom 0 before index (line.shown ++ '\n' :: rest) =
      line.found index (line.behind ++ rest) ::
        importStatement.matchesFrom 0 (some '\n') (index + (line.shown.length + 1)) rest := by
  have skips : importStatement.Skips line.behind := line.skips_behind (by decide) (by decide)
  have ends : index + (line.opening.length + 1) + line.behind.length =
      index + (line.shown.length + 1) := by
    have shown := congrArg List.length line.shown_lineEnd
    simp only [List.length_append, List.length_cons, List.length_nil] at shown
    omega
  -- the specifier behind the opening quote holds no other match
  rw [line.shown_append, importable.matchesFrom_opening edge, skips.matchesFrom_append,
    line.lastOf_behind, ends]

theorem seesWords_importStatement : importStatement.SeesWords := by
  simp [importStatement, SeesWords, maybeType, maybe, gap, several, blanks, quote]

/-- The search arrives at each line outside a word, at an index that the names do not depend
on. -/
theorem flatMap_ofImport_matchesFrom {lines : List Line}
    (importable : ∀ line ∈ lines, line.Importable) (before : Option Char)
    (edge : before.any Text.isWord = false) (index : Nat) (rest : List Char) :
    (importStatement.matchesFrom 0 before index (shownLines lines ++ rest)).flatMap ofImport =
      lines.flatMap (fun line => line.entries.map Entry.localName) ++
        (importStatement.allMatches rest).flatMap ofImport := by
  induction lines generalizing before index with
  | nil =>
    have alike :=
      @matchesFrom_alike _ seesWords_importStatement index none before edge.symm 0 0 rest
    rw [Nat.zero_add] at alike
    rw [shownLines, List.flatMap_nil, List.nil_append, alike, List.flatMap_map]
    rfl
  | cons line lines ih =>
    have own := importable line List.mem_cons_self
    have tail := ih (fun line' member => importable line' (List.mem_cons_of_mem line member))
      (some '\n') (by decide)
    rw [shownLines_cons, List.append_assoc, List.cons_append, own.matchesFrom_shown edge,
      List.flatMap_cons, own.ofImport_found, tail, List.flatMap_cons, List.append_assoc]

/-- The imports in front of a script are those of the lines, and the script keeps its own. -/
theorem flatMap_ofImport_shownLines {lines : List Line}
    (importable : ∀ line ∈ lines, line.Importable) (rest : List Char) :
    (importStatement.allMatches (shownLines lines ++ rest)).flatMap ofImport =
      lines.flatMap (fun line => line.entries.map Entry.localName) ++
        (importStatement.allMatches rest).flatMap ofImport :=
  flatMap_ofImport_matchesFrom importable none rfl 0 rest

end ImportBlock

end ImportSupply
