import ImportSupply.Proofs.ImportBlock.Line
import ImportSupply.Proofs.Literal.Segment
import ImportSupply.Proofs.Text.Classes
import ImportSupply.Proofs.Text.Cutting

/-!
# Import lines as masking shows them

A line of importable entries consists of an opening of identifiers and separators, which shows as
it is, and a quoted specifier, of which only the quotes show. It is masked independently of what
follows, so lines in front of a script leave the script's own masking alone
(`mask_written_append`).
-/

namespace ImportSupply

theorem Entry.localName_of_not_isAliased {entry : Entry} (same : entry.isAliased = false) :
    entry.localName = entry.name := by
  simpa [Entry.isAliased] using same

/-- What the names of an entry must be for a list in braces to show them: both are ASCII
identifiers. -/
structure Entry.Nameable (entry : Entry) : Prop where
  name : Name.isIdentifier entry.name.toList = true
  localName : Name.isIdentifier entry.localName.toList = true

instance (entry : Entry) : Decidable entry.Nameable :=
  decidable_of_iff
    (Name.isIdentifier entry.name.toList = true ∧ Name.isIdentifier entry.localName.toList = true)
    ⟨fun ⟨name, localName⟩ => ⟨name, localName⟩, fun ⟨name, localName⟩ => ⟨name, localName⟩⟩

/-- What the parts of an entry must be for its import to be written on a line of its own: both names
are ASCII identifiers, and the module's specifier holds no line feed. -/
structure Entry.Writable (entry : Entry) : Prop where
  name : Name.isIdentifier entry.name.toList = true
  localName : Name.isIdentifier entry.localName.toList = true
  oneLine : '\n' ∉ entry.source.toList

instance (entry : Entry) : Decidable entry.Writable :=
  decidable_of_iff
    (Name.isIdentifier entry.name.toList = true ∧ Name.isIdentifier entry.localName.toList = true ∧
      '\n' ∉ entry.source.toList)
    ⟨fun ⟨name, localName, oneLine⟩ => ⟨name, localName, oneLine⟩,
      fun ⟨name, localName, oneLine⟩ => ⟨name, localName, oneLine⟩⟩

theorem Entry.Writable.nameable {entry : Entry} (writable : entry.Writable) : entry.Nameable :=
  ⟨writable.name, writable.localName⟩

/-- What the parts of an entry must be for its import to be read back: both names are ASCII
identifiers, an entry under another name is not provided as `type`, and the module's specifier
stays on its line. -/
structure Entry.Importable (entry : Entry) : Prop where
  name : Name.isIdentifier entry.name.toList = true
  localName : Name.isIdentifier entry.localName.toList = true
  untyped : entry.isAliased = true → entry.name ≠ "type"
  oneLine : '\n' ∉ entry.source.toList

instance (entry : Entry) : Decidable entry.Importable :=
  decidable_of_iff
    (Name.isIdentifier entry.name.toList = true ∧ Name.isIdentifier entry.localName.toList = true ∧
      (entry.isAliased = true → entry.name ≠ "type") ∧ '\n' ∉ entry.source.toList)
    ⟨fun ⟨name, localName, untyped, oneLine⟩ => ⟨name, localName, untyped, oneLine⟩,
      fun ⟨name, localName, untyped, oneLine⟩ => ⟨name, localName, untyped, oneLine⟩⟩

theorem Entry.Importable.nameable {entry : Entry} (importable : entry.Importable) :
    entry.Nameable :=
  ⟨importable.name, importable.localName⟩

namespace ImportBlock

/-- Lines of importable entries, at least one, and of a module whose specifier stays on the line. -/
structure Line.Importable (line : Line) : Prop where
  nonempty : line.entries ≠ []
  entries : ∀ entry ∈ line.entries, entry.Importable
  oneLine : '\n' ∉ line.source.toList

theorem Line.Importable.nameable {line : Line} (importable : line.Importable) :
    ∀ entry ∈ line.entries, entry.Nameable :=
  fun entry own => (importable.entries entry own).nameable

/-- The lines planned for importable entries are importable. -/
theorem importable_of_mem_plan {entries : List Entry}
    (importable : ∀ entry ∈ entries, entry.Importable) {line : Line}
    (planned : line ∈ plan entries) : line.Importable := by
  have holds := holds_of_mem_plan planned
  refine ⟨holds.nonempty, fun entry member => importable entry (holds.subset entry member), ?_⟩
  obtain ⟨entry, rest, entries_eq⟩ := List.exists_cons_of_ne_nil holds.nonempty
  have member : entry ∈ line.entries := entries_eq ▸ List.mem_cons_self
  rw [← holds.source entry member]
  exact (importable entry (holds.subset entry member)).oneLine

/-- What stands between the braces of a line. -/
def Line.list (line : Line) : List Char :=
  ", ".toList.intercalate (line.entries.map specifier)

/-- A line up to its specifier. -/
def Line.opening (line : Line) : List Char :=
  line.keywords.toList ++ " \x7b ".toList ++ line.list ++ " \x7d from ".toList

/-- A line as masking shows it. -/
def Line.shown (line : Line) : List Char :=
  line.opening ++ maskedSource line.source

/-- Lines as masking shows them, each with its line end. -/
def shownLines (lines : List Line) : List Char :=
  lines.flatMap fun line => line.shown ++ ['\n']

theorem shownLines_cons (line : Line) (lines : List Line) :
    shownLines (line :: lines) = line.shown ++ '\n' :: shownLines lines := by
  simp [shownLines]

/-! ## The characters of a line -/

/-- The characters of a list in braces. -/
def isListChar (c : Char) : Bool :=
  Name.isIdentifierChar c || c == ' ' || c == ','

theorem isListChar_of_isIdentifier {text : List Char} (identifier : Name.isIdentifier text = true)
    {c : Char} (member : c ∈ text) : isListChar c = true := by
  simp [isListChar, (Name.isIdentifier_iff.mp identifier).2 c member]

theorem isListChar_of_mem_specifier {entry : Entry} (nameable : entry.Nameable) {c : Char}
    (member : c ∈ specifier entry) : isListChar c = true := by
  unfold specifier at member
  split at member
  · rw [List.mem_append, List.mem_append] at member
    rcases member with (member | member) | member
    · exact isListChar_of_isIdentifier nameable.name member
    · revert c
      decide
    · exact isListChar_of_isIdentifier nameable.localName member
  · exact isListChar_of_isIdentifier nameable.name member

theorem Line.isListChar_of_mem_list {line : Line}
    (nameable : ∀ entry ∈ line.entries, entry.Nameable) {c : Char} (member : c ∈ line.list) :
    isListChar c = true := by
  refine Text.forall_mem_intercalate (by decide) ?_ c member
  intro part specified c member
  obtain ⟨entry, listed, rfl⟩ := List.mem_map.mp specified
  exact isListChar_of_mem_specifier (nameable entry listed) member

/-- The characters of a line between its opening brace and its specifier. -/
def isInnerChar (c : Char) : Bool :=
  isListChar c || c == '}'

/-- What stands between the opening brace of a line and its specifier. -/
def Line.inner (line : Line) : List Char :=
  ' ' :: line.list ++ " \x7d from ".toList

theorem Line.opening_eq_inner (line : Line) :
    line.opening = line.keywords.toList ++ [' '] ++ '{' :: line.inner := by
  simp [opening, inner]

theorem Line.isInnerChar_of_mem_inner {line : Line}
    (nameable : ∀ entry ∈ line.entries, entry.Nameable) {c : Char} (member : c ∈ line.inner) :
    isInnerChar c = true := by
  simp only [inner, List.cons_append, List.mem_cons, List.mem_append] at member
  rcases member with rfl | member | member
  · decide
  · simp [isInnerChar, line.isListChar_of_mem_list nameable member]
  · revert c
    decide

theorem Line.isInnerChar_of_mem_keywords {line : Line} {c : Char}
    (member : c ∈ line.keywords.toList) : isInnerChar c = true := by
  unfold keywords at member
  split at member <;> revert c <;> decide

/-- The characters of a line up to its specifier. -/
def isOpeningChar (c : Char) : Bool :=
  isInnerChar c || c == '{'

theorem Line.isOpeningChar_of_mem_opening {line : Line}
    (nameable : ∀ entry ∈ line.entries, entry.Nameable) {c : Char} (member : c ∈ line.opening) :
    isOpeningChar c = true := by
  simp only [line.opening_eq_inner, List.mem_append, List.mem_cons, List.not_mem_nil,
    or_false] at member
  rcases member with (member | rfl) | rfl | member
  · simp [isOpeningChar, isInnerChar_of_mem_keywords member]
  · decide
  · decide
  · simp [isOpeningChar, line.isInnerChar_of_mem_inner nameable member]

theorem Line.Importable.isInert_of_mem_opening {line : Line} (importable : line.Importable)
    {c : Char} (member : c ∈ line.opening) : Literal.isInert c = true :=
  Literal.isInert_of_accept (by decide)
    (line.isOpeningChar_of_mem_opening importable.nameable member)

/-! ## What stands behind the opening quote -/

/-- A shown line behind its opening quote, with the line end. -/
def Line.behind (line : Line) : List Char :=
  (line.source.toList.flatMap escapeChar).map Literal.blank ++ ['\'', '\n']

theorem Line.shown_lineEnd (line : Line) :
    line.shown ++ ['\n'] = line.opening ++ '\'' :: line.behind := by
  simp [shown, maskedSource, behind]

theorem Line.shown_append (line : Line) (rest : List Char) :
    line.shown ++ '\n' :: rest = line.opening ++ '\'' :: (line.behind ++ rest) := by
  rw [← List.singleton_append, ← List.append_assoc, shown_lineEnd, List.append_assoc,
    List.cons_append]

/-- Behind its opening quote a line shows blanks, its closing quote and its end. -/
theorem Line.mem_of_mem_behind {line : Line} {c : Char} (member : c ∈ line.behind) :
    c ∈ [' ', '\r', '\'', '\n'] := by
  rcases List.mem_append.mp member with member | member
  · obtain ⟨d, -, rfl⟩ := List.mem_map.mp member
    unfold Literal.blank
    split
    next lineEnd => rcases lineEnd with rfl | rfl <;> decide
    next => decide
  · simp only [List.mem_cons] at member ⊢
    tauto

/-! ## Masking lines -/

theorem Line.text_eq (line : Line) : line.text = line.opening ++ quoteSource line.source := by
  simp [text, statement, opening, list]

theorem Line.Importable.mask_text_append {line : Line} (importable : line.Importable)
    (rest : List Char) : Literal.mask (line.text ++ rest) = line.shown ++ Literal.mask rest := by
  rw [Line.text_eq, List.append_assoc,
    Literal.mask_inert_append fun c member => importable.isInert_of_mem_opening member,
    mask_quoteSource_append importable.oneLine, Line.shown, List.append_assoc]

/-- Lines in front of a script are masked on their own, and so is the script. -/
theorem mask_written_append {lines : List Line} (importable : ∀ line ∈ lines, line.Importable)
    (rest : List Char) :
    Literal.mask (written lines ++ rest) = shownLines lines ++ Literal.mask rest := by
  induction lines with
  | nil => rfl
  | cons line lines ih =>
    have tail := ih fun line' member => importable line' (List.mem_cons_of_mem line member)
    have lineEnd (text : List Char) : Literal.mask ('\n' :: text) = '\n' :: Literal.mask text :=
      Literal.mask_inert_append (by decide : ∀ c ∈ ['\n'], Literal.isInert c = true) text
    rw [written_cons, shownLines_cons, List.append_assoc,
      (importable line List.mem_cons_self).mask_text_append, List.append_assoc, List.cons_append,
      List.cons_append, lineEnd, tail]

end ImportBlock

end ImportSupply
