import ImportSupply.Binding.Imported
import ImportSupply.Proofs.ImportBlock.Shown
import ImportSupply.Proofs.Pattern.Search
import ImportSupply.Proofs.Text.Cutting
import Mathlib.Data.List.Forall2

/-!
# Reading an import clause back

The clause of an import line binds the local names of the line's entries, in their order
(`ofClause_clause`). The list between the braces is split at its commas, the blanks around an entry
are trimmed, and an entry under another name is cut at its last `as`; names such as `as` or `type`
do not get in the way, because a name holds no blank.
-/

namespace ImportSupply

open Binding

namespace ImportBlock

/-! ## One entry -/

theorem not_mem_of_isIdentifier {text : List Char} (identifier : Name.isIdentifier text = true)
    {c : Char} (outside : Name.isIdentifierChar c = false) : c ∉ text := by
  intro member
  have inside := (Name.isIdentifier_iff.mp identifier).2 c member
  rw [outside] at inside
  cases inside

theorem ne_nil_of_isIdentifier {text : List Char} (identifier : Name.isIdentifier text = true) :
    text ≠ [] := by
  rintro rfl
  cases identifier

theorem head?_isBlank_of_isIdentifier {text : List Char}
    (identifier : Name.isIdentifier text = true) : text.head?.any Text.isBlank = false := by
  cases text with
  | nil => rfl
  | cons c rest =>
    exact Name.isBlank_eq_false_of_isIdentifierChar
      ((Name.isIdentifier_iff.mp identifier).2 c List.mem_cons_self)

theorem getLast?_isBlank_of_isIdentifier {text : List Char}
    (identifier : Name.isIdentifier text = true) : text.getLast?.any Text.isBlank = false := by
  cases last : text.getLast? with
  | none => rfl
  | some c =>
    exact Name.isBlank_eq_false_of_isIdentifierChar
      ((Name.isIdentifier_iff.mp identifier).2 c (List.mem_of_getLast? last))

/-- Trimming gives an entry back. -/
theorem trim_specifier {entry : Entry} (importable : entry.Importable) {front back : List Char}
    (leading : ∀ c ∈ front, Text.isBlank c = true)
    (trailing : ∀ c ∈ back, Text.isBlank c = true) :
    Text.trim (front ++ specifier entry ++ back) = specifier entry := by
  have first := head?_isBlank_of_isIdentifier importable.name
  have nonempty := ne_nil_of_isIdentifier importable.name
  unfold specifier
  split
  · refine Text.trim_padded leading trailing (by simp) ?_ ?_
    · obtain ⟨c, rest, name_eq⟩ := List.exists_cons_of_ne_nil nonempty
      rw [name_eq] at first ⊢
      exact first
    · rw [List.getLast?_append_of_ne_nil _ (ne_nil_of_isIdentifier importable.localName)]
      exact getLast?_isBlank_of_isIdentifier importable.localName
  · exact Text.trim_padded leading trailing nonempty first
      (getLast?_isBlank_of_isIdentifier importable.name)

/-- No entry starts with the word `type` on its own. -/
theorem isPrefixOf?_type_specifier {entry : Entry} (importable : entry.Importable) :
    "type ".toList.isPrefixOf? (specifier entry) = none := by
  have noBlank : ' ' ∉ entry.name.toList := not_mem_of_isIdentifier importable.name (by decide)
  by_contra typed
  obtain ⟨after, typed⟩ := Option.ne_none_iff_exists'.mp typed
  rw [List.isPrefixOf?_eq_some_iff_append_eq] at typed
  unfold specifier at typed
  split at typed
  next aliased =>
    -- the name ends at the first blank, and so does the word
    refine importable.untyped aliased (String.toList_inj.mp ?_)
    have split : "type".toList ++ ' ' :: after =
        entry.name.toList ++ ' ' :: ("as ".toList ++ entry.localName.toList) := by
      simpa using typed
    exact (Text.eq_of_append_cons_eq (by decide) noBlank split).symm
  next =>
    rw [← typed] at noBlank
    simp at noBlank

/-- An entry binds its local name, whatever blanks stand around it. -/
theorem ofSpecifier_specifier {entry : Entry} (importable : entry.Importable)
    {front back : List Char} (leading : ∀ c ∈ front, Text.isBlank c = true)
    (trailing : ∀ c ∈ back, Text.isBlank c = true) :
    ofSpecifier (front ++ specifier entry ++ back) = some entry.localName := by
  have bound : bindable? entry.localName.toList = some entry.localName := by
    rw [bindable?, if_pos (Name.isBindable_of_isIdentifier importable.localName),
      String.ofList_toList]
  simp only [ofSpecifier, trim_specifier importable leading trailing,
    isPrefixOf?_type_specifier importable, Option.map_none, Option.getD_none]
  cases aliased : entry.isAliased with
  | true =>
    -- the last ` as ` is the one written, since the local name has no blank
    have rare : ("as ".toList ++ entry.localName.toList).count ' ' < " as ".toList.count ' ' := by
      rw [List.count_append, List.count_eq_zero.mpr
        (not_mem_of_isIdentifier importable.localName (by decide))]
      decide
    have cut : Text.cutLast " as ".toList (specifier entry) =
        some (entry.name.toList, entry.localName.toList) := by
      rw [specifier, if_pos aliased]
      exact Text.cutLast_append (Text.cutLast_eq_none_of_count rare) entry.name.toList
    have trimmed : Text.trim entry.localName.toList = entry.localName.toList :=
      Text.trim_eq_self (head?_isBlank_of_isIdentifier importable.localName)
        (getLast?_isBlank_of_isIdentifier importable.localName)
    rw [cut]
    simp only
    rw [trimmed, bound]
  | false =>
    have rare : entry.name.toList.count ' ' < " as ".toList.count ' ' := by
      rw [List.count_eq_zero.mpr (not_mem_of_isIdentifier importable.name (by decide))]
      decide
    rw [specifier, if_neg (by simp [aliased]), Text.cutLast_eq_none_of_count rare]
    simp only
    rw [← Entry.localName_of_not_isAliased aliased, bound]

/-! ## The list in braces -/

theorem comma_not_mem_specifier {entry : Entry} (nameable : entry.Nameable) :
    ',' ∉ specifier entry := by
  have name : ',' ∉ entry.name.toList := not_mem_of_isIdentifier nameable.name (by decide)
  have localName : ',' ∉ entry.localName.toList :=
    not_mem_of_isIdentifier nameable.localName (by decide)
  unfold specifier
  split
  · simp [name, localName]
  · exact name

theorem comma_not_mem_of_isBlank {text : List Char} (blank : ∀ c ∈ text, Text.isBlank c = true) :
    ',' ∉ text := by
  intro member
  exact absurd (blank ',' member) (by decide)

/-- An entry with blanks around it, as a piece of a text. -/
def Padded (entry : Entry) (piece : List Char) : Prop :=
  ∃ front back, (∀ c ∈ front, Text.isBlank c = true) ∧ (∀ c ∈ back, Text.isBlank c = true) ∧
    piece = front ++ specifier entry ++ back

/-- The pieces between the commas of a list are its entries, with blanks around them. -/
theorem forall₂_padded_splitOn {entries : List Entry}
    (nameable : ∀ entry ∈ entries, entry.Nameable) (nonempty : entries ≠ [])
    {front back : List Char} (leading : ∀ c ∈ front, Text.isBlank c = true)
    (trailing : ∀ c ∈ back, Text.isBlank c = true) :
    List.Forall₂ Padded entries
      ((front ++ ", ".toList.intercalate (entries.map specifier) ++ back).splitOn ',') := by
  induction entries generalizing front with
  | nil => exact absurd rfl nonempty
  | cons entry entries ih =>
    have comma := comma_not_mem_specifier (nameable entry List.mem_cons_self)
    have leadingComma := comma_not_mem_of_isBlank leading
    cases entries with
    | nil =>
      have whole : ',' ∉ front ++ specifier entry ++ back := by
        simp [leadingComma, comma, comma_not_mem_of_isBlank trailing]
      rw [List.map_singleton, List.intercalate_singleton, List.splitOn_eq_singleton whole]
      exact .cons ⟨front, back, leading, trailing, rfl⟩ .nil
    | cons next entries =>
      -- the blank behind the comma leads the rest of the list
      have rest := @ih (fun other member => nameable other (List.mem_cons_of_mem entry member))
        (by simp) [' '] (by decide)
      have piece : ',' ∉ front ++ specifier entry := by simp [leadingComma, comma]
      have split :
          front ++ ", ".toList.intercalate ((entry :: next :: entries).map specifier) ++ back =
          (front ++ specifier entry) ++ ',' ::
            ([' '] ++ ", ".toList.intercalate ((next :: entries).map specifier) ++ back) := by
        simp [List.intercalate_cons_cons]
      rw [split, List.splitOn_append_cons_self_of_not_mem piece]
      exact .cons ⟨front, [], leading, by simp, by simp⟩ rest

/-- A list in braces binds the local names of its entries, whatever blanks stand around it. -/
theorem ofList_intercalate {entries : List Entry} (importable : ∀ entry ∈ entries, entry.Importable)
    (nonempty : entries ≠ []) {front back : List Char}
    (leading : ∀ c ∈ front, Text.isBlank c = true)
    (trailing : ∀ c ∈ back, Text.isBlank c = true) :
    ofList (front ++ ", ".toList.intercalate (entries.map specifier) ++ back) =
      entries.map Entry.localName := by
  have padded := (List.forall₂_and_left _ _).mpr ⟨importable,
    forall₂_padded_splitOn (fun entry member => (importable entry member).nameable) nonempty leading
      trailing⟩
  rw [ofList]
  generalize (front ++ ", ".toList.intercalate (entries.map specifier) ++ back).splitOn ',' = pieces
    at padded ⊢
  clear importable nonempty
  induction padded with
  | nil => rfl
  | cons first _ ih =>
    obtain ⟨importable, front, back, leading, trailing, rfl⟩ := first
    rw [List.filterMap_cons, ofSpecifier_specifier importable leading trailing, ih]
    rfl

/-! ## The clause -/

/-- The clause of a line, from its brace to the word behind it. -/
def Line.clause (line : Line) : List Char :=
  "\x7b ".toList ++ line.list ++ " \x7d ".toList

theorem Line.Importable.bracedOfClause_clause {line : Line} (importable : line.Importable) :
    bracedOfClause line.clause = line.entries.map Entry.localName := by
  have first : Text.cutFirst ['{'] line.clause = some ([], ' ' :: line.list ++ " \x7d ".toList) :=
    rfl
  have last : Text.cutLast ['}'] (' ' :: line.list ++ " \x7d ".toList) =
      some (' ' :: line.list ++ [' '], [' ']) := by
    have cut := @Text.cutLast_singleton_append '}' [' '] (by decide) (' ' :: line.list ++ [' '])
    simpa using cut
  rw [bracedOfClause, first]
  simp only
  rw [last]
  have blank : ∀ c ∈ [' '], Text.isBlank c = true := by decide
  exact ofList_intercalate importable.entries importable.nonempty blank blank

theorem Line.Importable.star_not_mem_clause {line : Line} (importable : line.Importable) :
    '*' ∉ line.clause := by
  intro member
  simp only [clause, List.mem_append] at member
  rcases member with (member | member) | member
  · exact absurd member (by decide)
  · exact absurd (line.isListChar_of_mem_list importable.nameable member) (by decide)
  · exact absurd member (by decide)

/-- A clause without a star binds no namespace. -/
theorem Line.Importable.namespaceOfClause_clause {line : Line} (importable : line.Importable) :
    namespaceOfClause line.clause = none := by
  have star (c : Char) : namespaceClause.starts c = (c == '*') := by
    simp [namespaceClause, starAs, Pattern.all, Pattern.text, Pattern.exactly, Pattern.starts,
      Pattern.nullable]
  have skips : namespaceClause.Skips line.clause := by
    refine Pattern.skips_of_starts (by decide) fun c member => ?_
    rw [star, beq_eq_false_iff_ne]
    rintro rfl
    exact importable.star_not_mem_clause member
  rw [namespaceOfClause, Pattern.firstMatch?, skips.allMatches_eq_nil]
  rfl

theorem Line.defaultOfClause_clause (line : Line) : defaultOfClause line.clause = none := by
  simp [defaultOfClause, clause, Text.trim, Text.dropEnds, Text.dropEnd, Text.dropStart, bindable?,
    Name.isBindable]

/-- The clause of a line binds the local names of its entries. -/
theorem Line.Importable.ofClause_clause {line : Line} (importable : line.Importable) :
    ofClause line.clause = line.entries.map Entry.localName := by
  rw [ofClause, importable.bracedOfClause_clause, importable.namespaceOfClause_clause,
    line.defaultOfClause_clause]
  simp

end ImportBlock

end ImportSupply
