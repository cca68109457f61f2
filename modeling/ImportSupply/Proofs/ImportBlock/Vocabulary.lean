import ImportSupply.Proofs.ImportBlock.Shown
import ImportSupply.Proofs.Use.Words

/-!
# The words of import lines

Import lines use words themselves: their keywords, and both names of each entry. Masked lines have
exactly these words, none of them a property, and then come the words of the script
(`ofText_shownLines_append`).
-/

namespace ImportSupply

/-- A name without dots before it, as a word. -/
def Word.bare (name : String) : Word :=
  ⟨0, name.toList⟩

@[simp]
theorem Word.name_bare (name : String) : (bare name).name = name := by
  simp [bare, Word.name]

namespace ImportBlock

/-- The words of an entry between the braces of a line. -/
def specifierWords (entry : Entry) : List String :=
  if entry.isAliased then [entry.name, "as", entry.localName] else [entry.name]

/-- The words of a line. -/
def Line.words (line : Line) : List String :=
  (if line.isType then ["import", "type"] else ["import"]) ++
    line.entries.flatMap specifierWords ++ ["from"]

/-- The words that lines have besides names. -/
def lineKeywords : List String :=
  ["import", "from", "type", "as"]

/-- A word of a line is a keyword or a name of one of its entries; the provided name differs from
the local one only in an aliased entry. -/
theorem Line.of_mem_words {line : Line} {name : String} (member : name ∈ line.words) :
    name ∈ lineKeywords ∨ ∃ entry ∈ line.entries,
      name = entry.localName ∨ entry.isAliased = true ∧ name = entry.name := by
  rw [words, List.mem_append, List.mem_append] at member
  rcases member with (member | member) | member
  · left
    split at member <;> revert name <;> decide
  · obtain ⟨entry, own, member⟩ := List.mem_flatMap.mp member
    unfold specifierWords at member
    split at member
    next aliased =>
      simp only [List.mem_cons, List.not_mem_nil, or_false] at member
      rcases member with same | rfl | same
      · exact .inr ⟨entry, own, .inr ⟨aliased, same⟩⟩
      · exact .inl (by decide)
      · exact .inr ⟨entry, own, .inl same⟩
    next plain =>
      have same := Entry.localName_of_not_isAliased (Bool.eq_false_iff.mpr plain)
      exact .inr ⟨entry, own, .inl ((List.mem_singleton.mp member).trans same.symm)⟩
  · rw [List.mem_singleton.mp member]
    exact .inl (by decide)

/-! ## The words are read -/

theorem ofText_specifier {entry : Entry} (importable : entry.Importable) :
    Word.ofText (specifier entry) = (specifierWords entry).map Word.bare := by
  have own : Word.ofText entry.name.toList = [Word.bare entry.name] :=
    Word.ofText_identifier importable.name
  have renamed : Word.ofText entry.localName.toList = [Word.bare entry.localName] :=
    Word.ofText_identifier importable.localName
  have between : Word.ofText "as".toList = [Word.bare "as"] := rfl
  unfold specifier specifierWords
  split
  · have parts : entry.name.toList ++ " as ".toList ++ entry.localName.toList =
        entry.name.toList ++ ' ' :: ("as".toList ++ ' ' :: entry.localName.toList) := by
      simp
    rw [parts, Word.ofText_append_separator (by decide), Word.ofText_append_separator (by decide),
      own, between, renamed]
    rfl
  · exact own

theorem ofText_list {entries : List Entry} (importable : ∀ entry ∈ entries, entry.Importable) :
    Word.ofText (", ".toList.intercalate (entries.map specifier)) =
      (entries.flatMap specifierWords).map Word.bare := by
  induction entries with
  | nil => rfl
  | cons entry entries ih =>
    have first := ofText_specifier (importable entry List.mem_cons_self)
    have tail := ih fun entry' member => importable entry' (List.mem_cons_of_mem entry member)
    cases entries with
    | nil => simpa using first
    | cons next entries =>
      have comma (text rest : List Char) :
          Word.ofText (text ++ ", ".toList ++ rest) = Word.ofText text ++ Word.ofText rest := by
        rw [List.append_assoc]
        exact (Word.ofText_append_separator (by decide) text (' ' :: rest)).trans
          (congrArg _ (Word.ofText_cons_separator (by decide) rest))
      rw [List.map_cons, List.map_cons, List.intercalate_cons_cons, comma, first, ← List.map_cons,
        tail, ← List.map_append]
      rfl

theorem Line.ofText_keywords (line : Line) :
    Word.ofText line.keywords.toList =
      (if line.isType then ["import", "type"] else ["import"]).map Word.bare := by
  unfold keywords
  split <;> decide

theorem Line.Importable.ofText_opening {line : Line} (importable : line.Importable) :
    Word.ofText line.opening = line.words.map Word.bare := by
  have parts : line.opening = line.keywords.toList ++ ' ' :: '{' :: ' ' ::
      (line.list ++ ' ' :: '}' :: ' ' :: ("from".toList ++ [' '])) := by
    simp [opening]
  have last : Word.ofText ("from".toList ++ [' ']) = [Word.bare "from"] := by decide
  rw [parts, Word.ofText_append_separator (by decide), Word.ofText_cons_separator (by decide),
    Word.ofText_cons_separator (by decide), Word.ofText_append_separator (by decide),
    Word.ofText_cons_separator (by decide), Word.ofText_cons_separator (by decide), last,
    line.ofText_keywords, list, ofText_list importable.entries, words]
  simp

theorem Line.ofText_behind_append (line : Line) (rest : List Char) :
    Word.ofText (line.behind ++ rest) = Word.ofText rest := by
  have separators : ∀ c ∈ [' ', '\r', '\'', '\n'], Word.isSeparator c = true := by decide
  exact Word.ofText_separators_append (fun c member => separators c (mem_of_mem_behind member)) rest

theorem Line.Importable.ofText_shown_append {line : Line} (importable : line.Importable)
    (rest : List Char) :
    Word.ofText (line.shown ++ '\n' :: rest) = line.words.map Word.bare ++ Word.ofText rest := by
  rw [line.shown_append, Word.ofText_append_separator (by decide), importable.ofText_opening,
    line.ofText_behind_append]

/-- Lines have their words, and then come those of the script. -/
theorem ofText_shownLines_append {lines : List Line}
    (importable : ∀ line ∈ lines, line.Importable) (rest : List Char) :
    Word.ofText (shownLines lines ++ rest) =
      (lines.flatMap Line.words).map Word.bare ++ Word.ofText rest := by
  induction lines with
  | nil => rfl
  | cons line lines ih =>
    have tail := ih fun line' member => importable line' (List.mem_cons_of_mem line member)
    rw [shownLines_cons, List.append_assoc, List.cons_append,
      (importable line List.mem_cons_self).ofText_shown_append, tail, List.flatMap_cons,
      List.map_append, List.append_assoc]

end ImportBlock

end ImportSupply
