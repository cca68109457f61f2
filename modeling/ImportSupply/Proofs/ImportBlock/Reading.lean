import ImportSupply.Proofs.ImportBlock.Clause

/-!
# A reader for import blocks

What a block says, read off its text without knowing how the text was made: the text is split into
lines, a line is cut at its braces, the list between them is split at its commas and an entry at its
blanks, and the quoting of the module is undone (`readBlock`). Written by entries whose names are
ASCII identifiers, a line reads as exactly these entries (`Line.Holds.readLine_text`): an identifier
holds no blank, comma or brace, so a name such as `as`, `from` or `type` is never taken for a
keyword, and a backslash tells the quotes of a module from the one that closes it
(`readQuoted_escaped`).
-/

namespace ImportSupply.ImportBlock

/-- One import as a block states it. -/
structure Import where
  /-- The name under which the module provides it. -/
  name : String
  /-- The name it takes in the script. -/
  localName : String
  /-- The module's specifier. -/
  source : String
  /-- Whether it is imported as a type. -/
  isType : Bool
  deriving DecidableEq, Repr

/-- The import of an entry. -/
def Import.ofEntry (entry : Entry) : Import :=
  ⟨entry.name, entry.localName, entry.source, entry.isType⟩

/-! ## The reader -/

/-- The body of a single-quoted literal and what follows its closing quote: a backslash stands for
the character behind it. -/
def readQuoted : List Char → Option (List Char × List Char)
  | [] => none
  | '\'' :: rest => some ([], rest)
  | '\\' :: c :: rest => (readQuoted rest).map fun read => (c :: read.1, read.2)
  | c :: rest => (readQuoted rest).map fun read => (c :: read.1, read.2)

/-- A module specifier from its literal, behind which nothing may follow. -/
def readLiteral : List Char → Option String
  | '\'' :: body =>
      (readQuoted body).bind fun read =>
        if read.2.isEmpty then some (String.ofList read.1) else none
  | _ => none

/-- The pieces of a text between its blanks. -/
def pieces (text : List Char) : List (List Char) :=
  (text.splitOnP Text.isBlank).filter fun piece => !piece.isEmpty

/-- The provided and the local name of an entry between the braces of a line. -/
def readNames (text : List Char) : Option (String × String) :=
  match pieces text with
  | [name] => some (String.ofList name, String.ofList name)
  | [name, between, localName] =>
      if between = "as".toList then some (String.ofList name, String.ofList localName) else none
  | _ => none

/-- Whether a line imports types, from the words before its brace. -/
def readKeywords (text : List Char) : Option Bool :=
  if pieces text = ["import".toList] then some false
  else if pieces text = ["import".toList, "type".toList] then some true
  else none

/-- The imports of one line. -/
def readLine (line : List Char) : Option (List Import) := do
  let opened ← Text.cutFirst ['{'] line
  let closed ← Text.cutFirst ['}'] opened.2
  let isType ← readKeywords opened.1
  let literal ← " from ".toList.isPrefixOf? closed.2
  let source ← readLiteral literal
  let names ← (closed.1.splitOn ',').mapM readNames
  return names.map fun pair => ⟨pair.1, pair.2, source, isType⟩

/-- A reader that succeeds on each item succeeds on a list of them. -/
theorem mapM_eq_some_of_forall₂ {α β : Type} {read : α → Option β} {items : List α}
    {results : List β}
    (reads : List.Forall₂ (fun result item => read item = some result) results items) :
    items.mapM read = some results := by
  induction reads with
  | nil => rfl
  | cons first _ ih =>
    rw [List.mapM_cons, first, ih]
    rfl

/-! ## Modules -/

/-- Escaped, a text is read up to the quote behind it, and comes out as it was. -/
theorem readQuoted_escaped (text rest : List Char) :
    readQuoted (text.flatMap escapeChar ++ '\'' :: rest) = some (text, rest) := by
  induction text with
  | nil => rfl
  | cons c text ih =>
    rw [List.flatMap_cons, List.append_assoc, escapeChar]
    by_cases escaped : c = '\\' ∨ c = '\''
    · rw [if_pos escaped, List.cons_append, List.singleton_append, readQuoted, ih]
      rfl
    · rw [if_neg escaped, List.singleton_append]
      rw [not_or] at escaped
      rw [readQuoted, ih]
      · rfl
      · exact escaped.2
      · intro _ _ same
        exact absurd same escaped.1

theorem readLiteral_quoteSource (source : String) :
    readLiteral (quoteSource source) = some source := by
  rw [quoteSource, List.cons_append, readLiteral, readQuoted_escaped]
  simp [String.ofList_toList]

/-! ## Names -/

theorem pieces_append_cons {c : Char} (blank : Text.isBlank c = true) (front back : List Char) :
    pieces (front ++ c :: back) = pieces front ++ pieces back := by
  rw [pieces, List.splitOnP_append_cons front back blank, List.filter_append]
  rfl

theorem pieces_blanks_append {front : List Char} (blank : ∀ c ∈ front, Text.isBlank c = true)
    (text : List Char) : pieces (front ++ text) = pieces text := by
  induction front with
  | nil => rfl
  | cons c front ih =>
    have step := pieces_append_cons (blank c List.mem_cons_self) [] (front ++ text)
    rw [List.cons_append]
    exact step.trans (ih fun d member => blank d (List.mem_cons_of_mem c member))

theorem pieces_append_blanks {back : List Char} (blank : ∀ c ∈ back, Text.isBlank c = true)
    (text : List Char) : pieces (text ++ back) = pieces text := by
  cases back with
  | nil => rw [List.append_nil]
  | cons c back =>
    have none := pieces_blanks_append (fun d member => blank d (List.mem_cons_of_mem c member)) []
    rw [List.append_nil] at none
    rw [pieces_append_cons (blank c List.mem_cons_self), none]
    exact List.append_nil _

theorem pieces_identifier {text : List Char} (identifier : Name.isIdentifier text = true) :
    pieces text = [text] := by
  have inside : ∀ c ∈ text, Text.isBlank c = false := fun c member =>
    Name.isBlank_eq_false_of_isIdentifierChar ((Name.isIdentifier_iff.mp identifier).2 c member)
  rw [pieces, List.splitOnP_eq_singleton inside]
  simp [ne_nil_of_isIdentifier identifier]

/-- An entry reads as its two names, whatever blanks stand around it. -/
theorem Padded.readNames_eq {entry : Entry} {piece : List Char} (padded : Padded entry piece)
    (nameable : entry.Nameable) : readNames piece = some (entry.name, entry.localName) := by
  obtain ⟨front, back, leading, trailing, rfl⟩ := padded
  have inner : pieces (front ++ specifier entry ++ back) = pieces (specifier entry) := by
    rw [pieces_append_blanks trailing, pieces_blanks_append leading]
  have own := pieces_identifier nameable.name
  -- one piece is a name that stands for itself, three are two names and the word between them
  rw [readNames, inner, specifier]
  cases aliased : entry.isAliased with
  | true =>
    have split : entry.name.toList ++ " as ".toList ++ entry.localName.toList =
        entry.name.toList ++ ' ' :: ("as".toList ++ ' ' :: entry.localName.toList) := by
      simp
    have between : pieces "as".toList = ["as".toList] := pieces_identifier (by decide)
    rw [if_pos rfl, split, pieces_append_cons (by decide), pieces_append_cons (by decide), own,
      between, pieces_identifier nameable.localName]
    simp
  | false =>
    rw [if_neg (by simp), own, Entry.localName_of_not_isAliased aliased]
    simp

/-! ## Lines -/

/-- A line as the reader cuts it: at its opening brace and at its closing brace. -/
theorem Line.text_eq_cut (line : Line) :
    line.text = (line.keywords.toList ++ [' ']) ++ '{' :: ((' ' :: line.list ++ [' ']) ++
      '}' :: (" from ".toList ++ quoteSource line.source)) := by
  rw [line.text_eq, line.opening_eq_inner]
  simp [inner]

theorem Line.readKeywords_keywords (line : Line) :
    readKeywords (line.keywords.toList ++ [' ']) = some line.isType := by
  unfold keywords
  cases line.isType <;> decide

theorem Line.brace_not_mem_keywords (line : Line) : '{' ∉ line.keywords.toList ++ [' '] := by
  unfold keywords
  cases line.isType <;> decide

theorem Line.brace_not_mem_list {line : Line} (nameable : ∀ entry ∈ line.entries, entry.Nameable) :
    '}' ∉ ' ' :: line.list ++ [' '] := by
  have list : '}' ∉ line.list := fun member =>
    absurd (line.isListChar_of_mem_list nameable member) (by decide)
  simp [list]

/-- A line reads as the imports of its entries. -/
theorem Line.Holds.readLine_text {entries : List Entry} {line : Line} (holds : line.Holds entries)
    (nameable : ∀ entry ∈ line.entries, entry.Nameable) :
    readLine line.text = some (line.entries.map Import.ofEntry) := by
  have opened := Text.cutFirst_singleton_append line.brace_not_mem_keywords
    ((' ' :: line.list ++ [' ']) ++ '}' :: (" from ".toList ++ quoteSource line.source))
  have closed := Text.cutFirst_singleton_append (Line.brace_not_mem_list nameable)
    (" from ".toList ++ quoteSource line.source)
  have literal : " from ".toList.isPrefixOf? (" from ".toList ++ quoteSource line.source) =
      some (quoteSource line.source) :=
    List.isPrefixOf?_eq_some_iff_append_eq.mpr rfl
  have blank : ∀ c ∈ [' '], Text.isBlank c = true := by decide
  have padded := forall₂_padded_splitOn nameable holds.nonempty blank blank
  have names : ((' ' :: line.list ++ [' ']).splitOn ',').mapM readNames =
      some (line.entries.map fun entry => (entry.name, entry.localName)) := by
    refine mapM_eq_some_of_forall₂ (List.forall₂_map_left_iff.mpr ?_)
    exact ((List.forall₂_and_left _ _).mpr ⟨nameable, padded⟩).imp fun _ _ both =>
      both.2.readNames_eq both.1
  have imports : line.entries.map Import.ofEntry =
      (line.entries.map fun entry => (entry.name, entry.localName)).map fun pair =>
        ⟨pair.1, pair.2, line.source, line.isType⟩ := by
    rw [List.map_map]
    refine List.map_congr_left fun entry own => ?_
    simp [Import.ofEntry, holds.source entry own, holds.kind entry own]
  -- each part of the line is what one step of the reader takes off
  rw [readLine, line.text_eq_cut, opened, imports]
  simp only [Option.bind_eq_bind, Option.bind_some]
  rw [closed]
  simp only [Option.bind_some]
  rw [line.readKeywords_keywords, literal]
  simp only [Option.bind_some]
  rw [readLiteral_quoteSource, names]
  rfl

end ImportSupply.ImportBlock
