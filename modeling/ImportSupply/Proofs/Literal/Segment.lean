import ImportSupply.ImportBlock
import ImportSupply.Proofs.Literal.Transition

/-!
# Masking segment by segment

Two kinds of text are masked independently of what stands behind them: code without quotes,
backticks and slashes, which shows as it is, and a quoted module specifier, whose body is blanked.
-/

namespace ImportSupply.Literal

/-- Characters that plain code passes over whatever follows them. -/
def isInert (c : Char) : Bool :=
  !(c == '/' || c == '\'' || c == '"' || c == '\x60')

/-- A class of characters without the four that can open something is inert. -/
theorem isInert_of_accept {accept : Char → Bool}
    (without : ∀ c ∈ ['/', '\'', '"', '\x60'], accept c = false) {c : Char}
    (accepted : accept c = true) : isInert c = true := by
  rw [isInert, Bool.not_eq_true']
  by_contra opens
  rw [Bool.not_eq_false] at opens
  have member : c ∈ ['/', '\'', '"', '\x60'] := by simpa [or_assoc] using opens
  rw [without c member] at accepted
  cases accepted

theorem passive_of_isInert {c : Char} (inert : isInert c = true) (rest : List Char) :
    Passive [.code] c rest := by
  simp only [isInert, Bool.not_eq_true', Bool.or_eq_false_iff, beq_eq_false_iff_ne] at inert
  obtain ⟨⟨⟨slash, single⟩, double⟩, backtick⟩ := inert
  exact ⟨fun opens => slash opens.1, fun opens => slash opens.1, single, double, backtick,
    fun other => absurd rfl other⟩

/-- Inert code in front of a script shows as it is, and the script is masked on its own. -/
theorem mask_inert_append {text : List Char} (inert : ∀ c ∈ text, isInert c = true)
    (rest : List Char) : mask (text ++ rest) = text ++ mask rest := by
  induction text with
  | nil => rfl
  | cons c text ih =>
    have passes := Transition.inCode .code (passive_of_isInert (inert c (by simp)) (text ++ rest))
    have tail := ih fun d member => inert d (List.mem_cons_of_mem c member)
    rw [mask_eq_shown, mask_eq_shown, Scanner.start] at tail ⊢
    rw [List.cons_append, passes.shown_cons, tail]
    rfl

/-- The body of a quoted specifier is blanked up to its own closing quote. -/
theorem shown_escaped_append {source : List Char} (oneLine : '\n' ∉ source) (below : List Mode)
    (rest : List Char) :
    Scanner.shown ⟨.quoted .single :: below, []⟩
        (source.flatMap ImportBlock.escapeChar ++ '\'' :: rest) =
      (source.flatMap ImportBlock.escapeChar).map blank ++
        '\'' :: Scanner.shown ⟨below, []⟩ rest := by
  induction source with
  | nil => exact (Transition.stringEnds .single below rest).shown_cons
  | cons c source ih =>
    rw [List.mem_cons, not_or] at oneLine
    have tail := ih oneLine.2
    rw [List.flatMap_cons, List.append_assoc, List.map_append, List.append_assoc, ← tail]
    by_cases escaped : c = '\\' ∨ c = '\''
    · have noEnd : isLineEnd c = false := by rcases escaped with rfl | rfl <;> rfl
      -- the backslash hides what it escapes, which is no line end
      rw [ImportBlock.escapeChar, if_pos escaped]
      rw [List.cons_append, (Transition.stringEscape .single below (by simpa)).shown_cons]
      rw [List.cons_append, (Transition.decided _ _ _ c _).shown_cons]
      rfl
    · rw [ImportBlock.escapeChar, if_neg escaped]
      rw [not_or] at escaped
      rw [List.cons_append, (Transition.inString .single below _ escaped.1 escaped.2
        (Ne.symm oneLine.1)).shown_cons]
      rfl

end ImportSupply.Literal

namespace ImportSupply.ImportBlock

/-- A quoted module specifier as masking shows it. -/
def maskedSource (source : String) : List Char :=
  '\'' :: (source.toList.flatMap escapeChar).map Literal.blank ++ ['\'']

/-- A quoted specifier of one line is masked to its quotes, and the script behind it on its own. -/
theorem mask_quoteSource_append {source : String} (oneLine : '\n' ∉ source.toList)
    (rest : List Char) :
    Literal.mask (quoteSource source ++ rest) = maskedSource source ++ Literal.mask rest := by
  have opens := Literal.Transition.stringOpens .single .code
    (source.toList.flatMap escapeChar ++ '\'' :: rest)
  have closes := Literal.shown_escaped_append oneLine [.code] rest
  rw [Literal.mask_eq_shown, Literal.mask_eq_shown, Literal.Scanner.start, quoteSource,
    maskedSource, List.cons_append, List.cons_append, List.append_assoc, List.append_assoc]
  exact opens.shown_cons.trans (congrArg ('\'' :: ·) closes)

end ImportSupply.ImportBlock
