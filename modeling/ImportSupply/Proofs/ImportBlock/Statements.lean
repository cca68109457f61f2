import ImportSupply.Proofs.ImportBlock.Lossless

/-!
# Blocks with modules of several lines

A module's specifier may hold line feeds, and then a line feed of the block does not end an import
statement. Cut at the line feeds outside of its literals only (`statements`), a block is the list of
its statements whatever the modules are (`statements_intercalate`), so it reads as its imports if
only the names are ASCII identifiers (`readStatements_intercalate`).
-/

namespace ImportSupply.ImportBlock

/-! ## Statements -/

/-- The parts of a text between the line feeds that stand outside of its single-quoted literals; the
flag says whether the text starts inside of one. -/
def statements : Bool → List Char → List (List Char)
  | _, [] => [[]]
  | true, '\\' :: c :: rest => (statements true rest).modifyHead (['\\', c] ++ ·)
  | quoted, c :: rest =>
      if c = '\'' then (statements (!quoted) rest).modifyHead ([c] ++ ·)
      else if c = '\n' ∧ quoted = false then [] :: statements false rest
      else (statements quoted rest).modifyHead ([c] ++ ·)

/-- The imports of a block, from its first statement to its last; an empty text has none. -/
def readStatements (text : List Char) : Option (List Import) :=
  if text.isEmpty then some []
  else ((statements false text).mapM readLine).map List.flatten

/-- A text that ends no statement: from being inside of a literal or not, it leads to being so or
not, and stays in one piece. -/
def Continues (quoted after : Bool) (text : List Char) : Prop :=
  ∀ rest, statements quoted (text ++ rest) = (statements after rest).modifyHead (text ++ ·)

variable {quoted after last : Bool} {text other : List Char}

theorem continues_nil (quoted : Bool) : Continues quoted quoted [] := by
  intro rest
  exact (congrFun List.modifyHead_id _).symm

theorem Continues.append (first : Continues quoted after text)
    (second : Continues after last other) : Continues quoted last (text ++ other) := by
  intro rest
  rw [List.append_assoc, first, second, List.modifyHead_modifyHead]
  simp only [Function.comp_def, List.append_assoc]

theorem continues_quote (quoted : Bool) : Continues quoted (!quoted) ['\''] := by
  intro rest
  rw [List.singleton_append, statements, if_pos rfl]
  intro _ _ _ wrong
  exact absurd wrong (by decide)

/-- Outside of literals, a text without quotes and line feeds. -/
theorem continues_plain {text : List Char} (unquoted : '\'' ∉ text) (oneLine : '\n' ∉ text) :
    Continues false false text := by
  induction text with
  | nil => exact continues_nil false
  | cons c text ih =>
    rw [List.mem_cons, not_or] at unquoted oneLine
    have step : Continues false false [c] := by
      intro rest
      rw [List.singleton_append, statements, if_neg (Ne.symm unquoted.1),
        if_neg fun ends => oneLine.1 ends.1.symm]
      simp
    exact step.append (ih unquoted.2 oneLine.2)

/-- Inside of a literal, an escaped text. -/
theorem continues_escaped (text : List Char) : Continues true true (text.flatMap escapeChar) := by
  induction text with
  | nil => exact continues_nil true
  | cons c text ih =>
    have step : Continues true true (escapeChar c) := by
      intro rest
      unfold escapeChar
      by_cases escaped : c = '\\' ∨ c = '\''
      · rw [if_pos escaped, List.cons_append, List.singleton_append, statements]
      · rw [if_neg escaped, List.singleton_append]
        rw [not_or] at escaped
        rw [statements, if_neg escaped.2, if_neg (by simp)]
        intro _ _ _ same
        exact absurd same escaped.1
    exact step.append ih

theorem continues_quoteSource (source : String) : Continues false false (quoteSource source) :=
  ((continues_quote false).append (continues_escaped source.toList)).append (continues_quote true)

theorem Line.continues_text {line : Line} (nameable : ∀ entry ∈ line.entries, entry.Nameable) :
    Continues false false line.text := by
  have outside {c : Char} (other : isOpeningChar c = false) : c ∉ line.opening := by
    intro member
    rw [line.isOpeningChar_of_mem_opening nameable member] at other
    cases other
  rw [line.text_eq]
  exact (continues_plain (outside (by decide)) (outside (by decide))).append
    (continues_quoteSource line.source)

/-- Lines are cut apart where they were joined. -/
theorem statements_intercalate {lines : List Line} (nonempty : lines ≠ [])
    (nameable : ∀ line ∈ lines, ∀ entry ∈ line.entries, entry.Nameable) :
    statements false (['\n'].intercalate (lines.map Line.text)) = lines.map Line.text := by
  induction lines with
  | nil => exact absurd rfl nonempty
  | cons line lines ih =>
    have continues := Line.continues_text (nameable line List.mem_cons_self)
    cases lines with
    | nil =>
      have whole := continues []
      rw [List.append_nil] at whole
      rw [List.map_singleton, List.intercalate_singleton, whole]
      simp [statements]
    | cons next lines =>
      -- a line is outside of literals at its end, so the line feed behind it cuts
      have rest := ih (by simp) fun other member =>
        nameable other (List.mem_cons_of_mem line member)
      have cut (text : List Char) :
          statements false ('\n' :: text) = [] :: statements false text := by
        rw [statements, if_neg (by decide), if_pos (by decide)]
        simp
      rw [List.map_cons, List.map_cons, List.intercalate_cons_cons, ← List.map_cons,
        List.append_assoc, continues, List.singleton_append, cut, rest]
      simp

/-- The block of entries whose names are identifiers reads as their imports, line by line. -/
theorem readStatements_intercalate {entries : List Entry}
    (nameable : ∀ entry ∈ entries, entry.Nameable) :
    readStatements (['\n'].intercalate ((plan entries).map Line.text)) =
      some (((plan entries).flatMap Line.entries).map Import.ofEntry) := by
  by_cases none : plan entries = []
  · rw [none]
    rfl
  have nonempty : ['\n'].intercalate ((plan entries).map Line.text) ≠ [] :=
    mt intercalate_text_eq_nil_iff.mp none
  have split := statements_intercalate none fun line planned entry member =>
    nameable entry ((holds_of_mem_plan planned).subset entry member)
  rw [readStatements, if_neg (by simpa using nonempty), split, mapM_readLine_plan nameable,
    Option.map_some, List.map_flatMap, ← List.flatMap_def]

end ImportSupply.ImportBlock
