import ImportSupply.Proofs.ImportBlock.Reading

/-!
# Quoting a module's specifier

A specifier is quoted by escaping its backslashes and then its quotes, which one pass over the text
does as well (`flatMap_escapeChar_eq_replaceAll`). Nothing is lost by it, and nothing in a specifier
ends the literal early: both a reader of literals and the scanner of scripts come to its end where
it was closed (`quoteSource_lossless`).
-/

namespace ImportSupply.ImportBlock

/-- A text with another text in place of every occurrence of a character. -/
def replaceAll (c : Char) (substitute text : List Char) : List Char :=
  text.flatMap fun d => if d = c then substitute else [d]

/-- Escaping doubles the backslashes and then puts one before every quote; those it puts in are not
doubled again. -/
theorem flatMap_escapeChar_eq_replaceAll (text : List Char) :
    text.flatMap escapeChar =
      replaceAll '\'' ['\\', '\''] (replaceAll '\\' ['\\', '\\'] text) := by
  rw [replaceAll, replaceAll, List.flatMap_assoc]
  refine List.flatMap_congr fun c _ => ?_
  by_cases backslash : c = '\\'
  · subst backslash
    rfl
  by_cases quote : c = '\''
  · subst quote
    rfl
  simp [escapeChar, backslash, quote]

theorem quoteSource_injective : Function.Injective quoteSource := by
  intro source other same
  have read := readLiteral_quoteSource source
  rw [same, readLiteral_quoteSource other] at read
  exact (Option.some.inj read).symm

/-- In an escaped specifier of one line, masking keeps the carriage returns alone. -/
theorem map_blank_escaped {source : String} (oneLine : '\n' ∉ source.toList) :
    (source.toList.flatMap escapeChar).map Literal.blank =
      (source.toList.flatMap escapeChar).map fun c => if c = '\r' then c else ' ' := by
  refine List.map_congr_left fun c member => ?_
  have inside : c ≠ '\n' := by
    rintro rfl
    have quoted : '\n' ∈ quoteSource source := by simp [quoteSource, member]
    rcases mem_quoteSource quoted with added | own
    · exact absurd added (by decide)
    · exact oneLine own
  simp [Literal.blank, inside]

/-- **Quoting loses nothing and holds.** The literal of a specifier is its text with the backslashes
and then the quotes escaped. Read as a literal, it ends at its own closing quote, whatever follows,
and stands for the specifier; no other specifier has it. In a script, its body is blanked, but for
the carriage returns of a specifier of one line, and the script goes on behind it as code. -/
theorem quoteSource_lossless (source : String) :
    ∃ body, quoteSource source = '\'' :: body ++ ['\''] ∧
      body = replaceAll '\'' ['\\', '\''] (replaceAll '\\' ['\\', '\\'] source.toList) ∧
      readLiteral (quoteSource source) = some source ∧
      (∀ rest, readQuoted (body ++ '\'' :: rest) = some (source.toList, rest)) ∧
      (∀ other, quoteSource other = quoteSource source → other = source) ∧
      ('\n' ∉ source.toList → ∀ rest, Literal.mask (quoteSource source ++ rest) =
        '\'' :: body.map (fun c => if c = '\r' then c else ' ') ++ '\'' :: Literal.mask rest) := by
  refine ⟨source.toList.flatMap escapeChar, rfl, flatMap_escapeChar_eq_replaceAll _,
    readLiteral_quoteSource source, readQuoted_escaped _, fun other same => ?_,
    fun oneLine rest => ?_⟩
  · exact quoteSource_injective same
  · rw [mask_quoteSource_append oneLine, maskedSource, map_blank_escaped oneLine]
    simp

/-- A specifier with an escaped quote inside, a carriage return, and a backslash at its end. -/
theorem quoteSource_lossless_backslash :
    '\n' ∉ "\\'\r\\".toList ∧ quoteSource "\\'\r\\" = "'\\\\\\'\r\\\\'".toList ∧
      ∀ rest, Literal.mask (quoteSource "\\'\r\\" ++ rest) =
        "'    \r  '".toList ++ Literal.mask rest := by
  obtain ⟨body, -, body_eq, -, -, -, masked⟩ := quoteSource_lossless "\\'\r\\"
  have spelled : body = "\\\\\\'\r\\\\".toList := body_eq.trans (by decide)
  refine ⟨by decide, by decide, fun rest => ?_⟩
  rw [masked (by decide), spelled]
  rfl

end ImportSupply.ImportBlock
