import ImportSupply.Proofs.Binding.Names
import ImportSupply.Proofs.ImportBlock.ReadBack

/-!
# What import lines leave alone

Import lines in front of a script add bindings and take none away: what the script imports or
declares it still imports or declares behind them (`imported_subset_append`,
`declared_subset_append`), and the entries of the lines are imported as well
(`localName_mem_imported`).

A search could only miss something in the script if a match that starts in a line ran on into the
script. For most patterns the quote of the line's module stops it (`undisturbed_of_barrier`). Three
patterns can read quotes, but none of these starts in a line: each needs a character first that the
line does not have any more.
-/

namespace ImportSupply

open Pattern

/-! ## Statements that need a certain character -/

namespace Binding

variable {accept : Char → Bool} (back : List Char)

/-- A type declaration needs an equals sign, or an angle bracket before it. -/
theorem stuck_typeDeclaration (without : ∀ c ∈ ['<', '='], accept c = false) :
    Stuck (Before accept '\'' back) typeDeclaration := by
  have angle : Stuck (Before accept '\'' back) (text "<") :=
    stuck_before ['<', '='] rfl (by simp [text, exactly, all, starts]) without (by decide) back
  have equals : Stuck (Before accept '\'' back) (text "=") :=
    stuck_before ['<', '='] rfl (by simp [text, exactly, all, starts]) without (by decide) back
  have parameters : Stays (Before accept '\'' back)
      (maybe (all [text "<", few (· != ';'), text ">"])) :=
    angle.seq.stays.either stays_nothing
  exact stuck_all [wordEdge, text "type", gap, group 1 name, blanks] [] (by decide)
    (parameters.seq_stuck (stuck_all [blanks] [] (by decide) equals))

theorem stuck_destructuringDeclaration (without : ∀ c ∈ ['{', '['], accept c = false) :
    Stuck (Before accept '\'' back) destructuringDeclaration :=
  stuck_all [wordEdge, variableWord, blanks] [blanks, text "="] (by decide)
    (stuck_before ['{', '['] rfl (by simp [bracketed, all, starts, nullable]) without
      (by decide) back)

theorem stuck_reexportStatement (without : ∀ c ∈ ['{', '*'], accept c = false) :
    Stuck (Before accept '\'' back) reexportStatement :=
  stuck_all [wordEdge, text "export", maybeType, blanks] [blanks, text "from", blanks, quote]
    (by decide)
    (stuck_before ['{', '*'] rfl
      (by simp [bracketed, starAs, text, exactly, all, starts, nullable]) without (by decide) back)

/-- A re-export needs its word. -/
theorem stuck_reexportStatement_word (without : accept 'x' = false) :
    Stuck (Before accept '{' back) reexportStatement := by
  -- an `e` alone does not make the word
  have second : Stuck (Before accept '{' back) (one (· == 'x')) :=
    stuck_before ['x'] rfl (by simp [starts]) (by simpa using without) (by decide) back
  have word : Stuck (Before accept '{' back) (text "export") :=
    stuck_all [one (· == 'e')] ("port".toList.map fun c => one (· == c)) (by decide) second
  exact stuck_all [wordEdge] _ (by decide) word

end Binding

namespace ImportBlock

open Binding

/-! ## Searching behind lines -/

/-- A pattern that lines in front of a script do not disturb: behind a line it finds what it finds
at the start, and what it finds in a line ends there. -/
structure Undisturbed (pattern : Pattern Char) : Prop where
  sees : pattern.SeesWords
  confined : ∀ line : Line, line.Importable →
    pattern.Confined (line.opening ++ ['\''] ++ line.behind)

theorem Undisturbed.confined_shownLines {pattern : Pattern Char}
    (undisturbed : Undisturbed pattern) {lines : List Line}
    (importable : ∀ line ∈ lines, line.Importable) : pattern.Confined (shownLines lines) := by
  induction lines with
  | nil => trivial
  | cons line lines ih =>
    have tail := ih fun line' member => importable line' (List.mem_cons_of_mem line member)
    have own := undisturbed.confined line (importable line List.mem_cons_self)
    rw [shownLines_cons, line.shown_append]
    simpa using own.append tail

theorem getLast?_shownLines (lines : List Line) :
    (shownLines lines).getLast?.any Text.isWord = false := by
  rcases lines.eq_nil_or_concat with rfl | ⟨front, line, rfl⟩
  · rfl
  · rw [shownLines, List.concat_eq_append, List.flatMap_append, List.flatMap_singleton,
      ← List.append_assoc, List.getLast?_concat]
    decide

/-- Whatever is read off the matches in a script is read off again behind lines. -/
theorem Undisturbed.flatMap_subset_append {pattern : Pattern Char}
    (undisturbed : Undisturbed pattern) {lines : List Line}
    (importable : ∀ line ∈ lines, line.Importable) {read : Match Char → List String}
    (shift : ∀ offset found, read (Match.shift offset found) = read found) (rest : List Char) :
    (pattern.allMatches rest).flatMap read ⊆
      (pattern.allMatches (shownLines lines ++ rest)).flatMap read := by
  -- what is found in the lines comes first, and then what is found in the script
  obtain ⟨found, all⟩ := (undisturbed.confined_shownLines importable).allMatches_append
    undisturbed.sees (getLast?_shownLines lines) rest
  rw [all, List.flatMap_append, List.flatMap_map]
  simp only [shift]
  exact List.subset_append_right _ _

section

variable {pattern : Pattern Char} (sees : pattern.SeesWords) (needs : pattern.nullable = false)
  (wrong : ∀ c ∈ [' ', '\r', '\'', '\n'], pattern.starts c = false)

include sees needs wrong

/-- A pattern that reads no quote does not get past that of a line's module. -/
theorem undisturbed_of_barrier (barrier : pattern.reads '\'' = false) : Undisturbed pattern :=
  ⟨sees, fun line _ =>
    (confined_of_barrier barrier line.opening).append (line.skips_behind needs wrong).confined⟩

theorem undisturbed_of_skips
    (skips : ∀ line : Line, line.Importable → pattern.Skips (line.opening ++ ['\''])) :
    Undisturbed pattern :=
  ⟨sees, fun line importable =>
    ((skips line importable).append (line.skips_behind needs wrong)).confined⟩

end

/-! ## The statements of a script -/

theorem undisturbed_typeDeclaration : Undisturbed typeDeclaration := by
  refine undisturbed_of_skips ?_ (by decide) (by decide) fun line importable => ?_
  · simp [typeDeclaration, SeesWords, maybe, gap, several, blanks, Pattern.name]
  · exact skips_of_stuck (fun back => stuck_typeDeclaration back (by decide))
      fun c => Line.isOpeningChar_of_mem_opening importable.nameable

/-- None of the words that declare variables starts before a line's opening brace, and behind it
there is no further brace or bracket. -/
theorem undisturbed_destructuringDeclaration : Undisturbed destructuringDeclaration := by
  refine undisturbed_of_skips ?_ (by decide) (by decide) fun line importable => ?_
  · simp [destructuringDeclaration, SeesWords, blanks, variableWord, anyOf, bracketed]
  have words : destructuringDeclaration.Skips (line.keywords.toList ++ [' '] ++ ['{']) := by
    refine skips_of_starts (by decide) ?_
    unfold Line.keywords
    split <;> decide
  have inner : destructuringDeclaration.Skips (line.inner ++ ['\'']) :=
    skips_of_stuck (fun back => stuck_destructuringDeclaration back (by decide))
      fun c => Line.isInnerChar_of_mem_inner importable.nameable
  rw [line.opening_eq_inner]
  simpa using words.append inner

/-- The word of a re-export does not start before a line's opening brace, and behind it there is no
further brace, nor a star. -/
theorem Line.Importable.skips_reexportStatement {line : Line} (importable : line.Importable) :
    reexportStatement.Skips (line.opening ++ ['\'']) := by
  have words : reexportStatement.Skips (line.keywords.toList ++ [' '] ++ ['{']) := by
    refine @skips_of_stuck _ _ _ (· != 'x') _
      (fun back => stuck_reexportStatement_word back (by decide)) ?_
    unfold Line.keywords
    split <;> decide
  have inner : reexportStatement.Skips (line.inner ++ ['\'']) :=
    skips_of_stuck (fun back => stuck_reexportStatement back (by decide))
      fun c => Line.isInnerChar_of_mem_inner importable.nameable
  rw [line.opening_eq_inner]
  simpa using words.append inner

theorem undisturbed_reexportStatement : Undisturbed reexportStatement := by
  refine undisturbed_of_skips ?_ (by decide) (by decide) fun _ =>
    Line.Importable.skips_reexportStatement
  simp [reexportStatement, SeesWords, maybeType, maybe, gap, several, blanks, quote, bracketed,
    starAs]

theorem undisturbed_of_mem_namedDeclarations {pattern : Pattern Char}
    (member : pattern ∈ namedDeclarations) : Undisturbed pattern := by
  simp only [namedDeclarations, List.mem_cons, List.not_mem_nil, or_false] at member
  rcases member with rfl | rfl | rfl | rfl | rfl | rfl
  · refine undisturbed_of_barrier ?_ (by decide) (by decide) (by decide)
    simp [functionDeclaration, SeesWords, maybeWord, maybe, gap, several, blanks, Pattern.name]
  · refine undisturbed_of_barrier ?_ (by decide) (by decide) (by decide)
    simp [variableDeclaration, SeesWords, variableWord, anyOf, gap, several, Pattern.name]
  · refine undisturbed_of_barrier ?_ (by decide) (by decide) (by decide)
    simp [classDeclaration, SeesWords, maybeWord, maybe, gap, several, Pattern.name]
  · exact undisturbed_typeDeclaration
  · refine undisturbed_of_barrier ?_ (by decide) (by decide) (by decide)
    simp [interfaceDeclaration, SeesWords, gap, several, Pattern.name]
  · refine undisturbed_of_barrier ?_ (by decide) (by decide) (by decide)
    simp [enumDeclaration, SeesWords, gap, several, Pattern.name]

/-! ## Bindings of a script behind lines -/

section

variable {lines : List Line} (importable : ∀ line ∈ lines, line.Importable) (script : List Char)

include importable

/-- The entries of lines are imported under their local names. -/
theorem localName_mem_imported {line : Line} (own : line ∈ lines) {entry : Entry}
    (member : entry ∈ line.entries) :
    entry.localName ∈ imported (written lines ++ script) := by
  rw [imported, mask_written_append importable, importedIn,
    flatMap_ofImport_shownLines importable]
  refine List.mem_append_left _ (List.mem_append_left _ ?_)
  exact List.mem_flatMap.mpr ⟨line, own, List.mem_map_of_mem member⟩

theorem imported_subset_append : imported script ⊆ imported (written lines ++ script) := by
  rw [imported, imported, mask_written_append importable, importedIn, importedIn,
    flatMap_ofImport_shownLines importable]
  refine List.append_subset.mpr ⟨?_, ?_⟩
  · intro name member
    exact List.mem_append_left _ (List.mem_append_right _ member)
  · refine List.Subset.trans ?_ (List.subset_append_right _ _)
    exact undisturbed_reexportStatement.flatMap_subset_append importable (fun _ _ => rfl) _

theorem declared_subset_append : declared script ⊆ declared (written lines ++ script) := by
  rw [declared, declared, mask_written_append importable, declaredIn, declaredIn]
  refine List.append_subset.mpr ⟨?_, ?_⟩
  · intro name member
    obtain ⟨declaration, named, own⟩ := List.mem_flatMap.mp member
    refine List.mem_append_left _ (List.mem_flatMap.mpr ⟨declaration, named, ?_⟩)
    -- the name of a match does not depend on where the match starts
    rw [namesOf, List.filterMap_eq_flatMap_toList] at own ⊢
    exact (undisturbed_of_mem_namedDeclarations named).flatMap_subset_append importable
      (fun _ _ => rfl) _ own
  · refine List.Subset.trans ?_ (List.subset_append_right _ _)
    exact undisturbed_destructuringDeclaration.flatMap_subset_append importable (fun _ _ => rfl) _

end

end ImportBlock

end ImportSupply
