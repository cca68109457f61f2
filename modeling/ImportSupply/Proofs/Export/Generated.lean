import ImportSupply.Globals
import ImportSupply.Proofs.Declarations.Names
import ImportSupply.Proofs.Export.Exactness

/-!
# Generated files export nothing

A scan may come upon the files that a setup generated. The globals file is JSON, which shows no `x`
outside its strings (`entries_globals`). A declaration file holds the word `export` once as a
statement, of an empty list, and otherwise at most as the end of a declared name, where an equals
sign or a colon follows (`entries_declarations`). So neither makes an entry, whatever is registered.
-/

namespace ImportSupply

/-- What the parts of an entry must be for its declaration to be one line of code: both names are
ASCII identifiers and the module's specifier has no line feed. -/
structure Entry.Plain (entry : Entry) : Prop where
  name : Name.isIdentifier entry.name.toList = true
  localName : Name.isIdentifier entry.localName.toList = true
  oneLine : '\n' ∉ entry.source.toList

instance (entry : Entry) : Decidable entry.Plain :=
  decidable_of_iff
    (Name.isIdentifier entry.name.toList = true ∧ Name.isIdentifier entry.localName.toList = true ∧
      '\n' ∉ entry.source.toList)
    ⟨fun ⟨name, localName, oneLine⟩ => ⟨name, localName, oneLine⟩,
      fun ⟨name, localName, oneLine⟩ => ⟨name, localName, oneLine⟩⟩

namespace Export

open Pattern Literal

/-! ## What follows the word `export` -/

/-- Behind the word `export` and a gap stands a keyword or the brace of a list. -/
theorem Form.exists_mark_of_spells {form : Form} {before : Option Char} {piece rest : List Char}
    {captures : List (Capture Char)} (spells : form.pattern.Spells before piece rest captures) :
    ∃ gap c more, IsGap gap ∧ piece ++ rest = "export".toList ++ (gap ++ c :: more) ∧
      (Text.isWord c = true ∨ c = '\x7b') := by
  by_cases names : form = .list
  · subst names
    obtain ⟨gap, typed, list, back, isGap, isTyped, -, rfl, -⟩ := exists_of_spells_listExport spells
    rcases isTyped with rfl | ⟨gap', -, rfl⟩
    · exact ⟨gap, '\x7b', list ++ '\x7d' :: (back ++ rest), isGap, by simp, .inr rfl⟩
    · exact ⟨gap, 't', "ype".toList ++ (gap' ++ '\x7b' :: (list ++ '\x7d' :: (back ++ rest))), isGap,
        by simp, .inl (by decide)⟩
  · obtain ⟨gap, opening, named, closing, rfl, -, isGap, -, opens, bindable, -, -, -⟩ :=
      (spells_iff names).mp spells
    obtain ⟨keywords, known, keyed⟩ := opens.exists_keyed names
      (head?_isSeparator_of_isBindable bindable _)
    cases keyed with
    | nil => exact absurd rfl (ne_nil_of_mem_keywords known)
    | @cons keyword _ separator opening =>
      obtain ⟨c, word, cons⟩ : ∃ c word, keyword.word.toList = c :: word := by
        cases keyword <;> exact ⟨_, _, rfl⟩
      exact ⟨gap, c, word ++ (separator ++ (opening ++ (named ++ (closing ++ rest)))), isGap,
        by simp [cons], .inl (Keyword.isWord_of_mem c (cons ▸ List.mem_cons_self))⟩

/-- If no match says anything, a script has no exports. -/
theorem entries_eq_nil {script : List Char} {source : String} {types : Bool}
    (nothing : ∀ form : Form, ((form.pattern.allMatches (mask script)).flatMap fun found =>
      spread (placeOf (mask script) found) (form.ofMatch source types found)) = []) :
    entries script source types = [] := by
  have none : found (mask script) source types = [] := by
    rw [found_eq]
    exact List.flatMap_eq_nil_iff.mpr fun form _ => nothing form
  rw [entries, none, List.mergeSort_nil, List.map_nil]

/-! ## Texts that show no `x` -/

/-- A text of which no `x` shows. -/
def Mute (text : List Char) : Prop :=
  ∃ segments, Literal.textOf segments = text ∧ 'x' ∉ displayOf segments

section

variable {text other : List Char}

theorem Mute.append (first : Mute text) (second : Mute other) : Mute (text ++ other) := by
  obtain ⟨segments, rfl, absent⟩ := first
  obtain ⟨others, rfl, absent'⟩ := second
  refine ⟨segments ++ others, List.flatMap_append, ?_⟩
  simp [absent, absent']

theorem mute_of_inert (inert : ∀ c ∈ text, isInert c = true) (absent : 'x' ∉ text) : Mute text :=
  ⟨[.code text inert], by simp [Literal.textOf, Segment.text], by simpa using absent⟩

theorem not_mem_quoted (string : Quoted) : 'x' ∉ string.display := by
  intro member
  have outside := isWord_of_mem_quoted 'x' member
  revert outside
  decide

theorem mute_quoted (string : Quoted) : Mute string.text :=
  ⟨[.quoted string], by simp [Literal.textOf, Segment.text], by simp [not_mem_quoted]⟩

theorem Mute.entries_eq_nil (mute : Mute text) (source : String) (types : Bool) :
    entries text source types = [] := by
  obtain ⟨segments, rfl, absent⟩ := mute
  refine Export.entries_eq_nil fun form => ?_
  rw [mask_textOf]
  refine List.flatMap_eq_nil_iff.mpr fun found member => ?_
  obtain ⟨front, piece, rest, _, split, spells, -⟩ := exists_spells_of_mem_allMatches member
  obtain ⟨gap, c, more, -, whole, -⟩ := Form.exists_mark_of_spells spells
  apply absurd _ absent
  rw [split, whole]
  simp

end

/-! ## The globals file -/

/-- An escaped character is part of a string between double quotes. -/
theorem exists_items_of_escapeChar (c : Char) :
    ∃ items : List StringItem, items.flatMap StringItem.text = Json.escapeChar c ∧
      ∀ item ∈ items, item.fits .double = true := by
  have digit : ∀ n, n < 16 → (StringItem.char (Json.hexDigit n)).fits .double = true := by decide
  unfold Json.escapeChar
  split_ifs with quote backslash _ _ lineEnd _ _ control
  · exact ⟨[.escape '"'], rfl, by decide⟩
  · exact ⟨[.escape '\\'], rfl, by decide⟩
  · exact ⟨[.escape 'b'], rfl, by decide⟩
  · exact ⟨[.escape 't'], rfl, by decide⟩
  · exact ⟨[.escape 'n'], rfl, by decide⟩
  · exact ⟨[.escape 'f'], rfl, by decide⟩
  · exact ⟨[.escape 'r'], rfl, by decide⟩
  · refine ⟨[.escape 'u', .char '0', .char '0', .char (Json.hexDigit (c.toNat / 16)),
      .char (Json.hexDigit (c.toNat % 16))], rfl, ?_⟩
    simp only [List.mem_cons, List.not_mem_nil, or_false, forall_eq_or_imp, forall_eq]
    exact ⟨rfl, rfl, rfl, digit _ (by omega), digit _ (by omega)⟩
  · refine ⟨[.char c], rfl, ?_⟩
    simp [StringItem.fits, Quote.char, quote, backslash, lineEnd]

theorem mute_writeString (text : String) : Mute (Json.writeString text) := by
  obtain ⟨items, written, fits⟩ : ∃ items : List StringItem,
      items.flatMap StringItem.text = text.toList.flatMap Json.escapeChar ∧
        ∀ item ∈ items, item.fits .double = true := by
    induction text.toList with
    | nil => exact ⟨[], rfl, by simp⟩
    | cons c rest ih =>
      obtain ⟨items, written, fits⟩ := ih
      obtain ⟨own, written', fits'⟩ := exists_items_of_escapeChar c
      refine ⟨own ++ items, by rw [List.flatMap_append, List.flatMap_cons, written, written'], ?_⟩
      exact List.forall_mem_append.mpr ⟨fits', fits⟩
  have quoted := mute_quoted ⟨.double, items, fits⟩
  simpa [Quoted.text, written, Json.writeString, Quote.char] using quoted

theorem mute_newLine (level : Nat) : Mute (Json.newLine level) := by
  refine mute_of_inert (fun c member => ?_) fun member => ?_
  · rcases List.mem_cons.mp member with rfl | member
    · decide
    · rw [List.eq_of_mem_replicate member]
      decide
  · simp [Json.newLine] at member

theorem mute_setting (setting : Globals.Setting) (level : Nat) :
    Mute (setting.toJson.indented level) := by
  cases setting with
  | flag value =>
    show Mute (Json.writeBool value)
    cases value <;> exact mute_of_inert (by decide) (by decide)
  | access value => exact mute_writeString value.word

theorem mute_indentedMembers {members : List (String × Json.Value)} {level : Nat}
    (mute : ∀ member ∈ members, Mute (member.2.indented level)) :
    Mute (Json.indentedMembers level members) := by
  have colon : Mute [':', ' '] := mute_of_inert (by decide) (by decide)
  have comma : Mute [','] := mute_of_inert (by decide) (by decide)
  induction members with
  | nil => exact mute_of_inert (by simp [Json.indentedMembers]) (by simp [Json.indentedMembers])
  | cons member members ih =>
    obtain ⟨key, value⟩ := member
    have own := ((mute_writeString key).append colon).append (mute (key, value) List.mem_cons_self)
    cases members with
    | nil => simpa [Json.indentedMembers] using own
    | cons next members =>
      have later := ih fun other member => mute other (List.mem_cons_of_mem _ member)
      have whole := ((own.append comma).append (mute_newLine level)).append later
      simpa [Json.indentedMembers] using whole

theorem mute_object {members : List (String × Json.Value)} {level : Nat}
    (mute : ∀ member ∈ members, Mute (member.2.indented (level + 1))) :
    Mute ((Json.Value.object members).indented level) := by
  have opened : Mute ['\x7b'] := mute_of_inert (by decide) (by decide)
  have closed : Mute ['\x7d'] := mute_of_inert (by decide) (by decide)
  cases members with
  | nil => exact opened.append closed
  | cons member members =>
    have whole := (((opened.append (mute_newLine (level + 1))).append
      (mute_indentedMembers mute)).append (mute_newLine level)).append closed
    simpa [Json.Value.indented] using whole

/-- A globals file has no exports. -/
theorem entries_globals (setting : Globals.Setting) (names : List String) (source : String)
    (types : Bool) : entries ((Globals.toJson setting names).indented 0) source types = [] := by
  refine Mute.entries_eq_nil (mute_object fun member known => ?_) source types
  rw [List.mem_singleton.mp known]
  refine mute_object fun member known => ?_
  obtain ⟨name, -, rfl⟩ := List.mem_map.mp known
  exact mute_setting setting 2

/-! ## The declaration file -/

/-- The word `export` can end in a name only where the name ends, if no `x` stands around it. -/
theorem eq_of_append_export {front name later start behind : List Char} (absent : 'x' ∉ front)
    (named : ∀ c ∈ name, Name.isTail c = true) (absent' : 'x' ∉ later)
    (ends : later.head?.any Name.isTail = false) (free : behind.head?.any Name.isTail = false)
    (split : start ++ ("export".toList ++ behind) = front ++ (name ++ later)) : behind = later := by
  -- The `x` of the word is one of the name, and what is left of the name is what follows the `x`.
  have around : start ++ ['e'] ++ 'x' :: ("port".toList ++ behind) = front ++ (name ++ later) := by
    rw [← split]
    simp
  obtain ⟨inner, -, inName⟩ := @Text.exists_append_of_head? (· != 'x') _ _ _ _ around
    (by simpa using fun c member => ne_of_mem_of_not_mem member absent) rfl
  rcases List.append_eq_append_iff.mp inName with ⟨others, rfl, cut⟩ | ⟨others, -, cut⟩
  · cases others with
    | nil =>
      apply absurd _ absent'
      rw [List.nil_append] at cut
      rw [← cut]
      exact List.mem_cons_self
    | cons x others =>
      exact (Text.eq_of_append_run (by decide : ∀ c ∈ "port".toList, Name.isTail c = true) free
        (fun c member => named c (by simp [member])) ends (List.cons.inj cut).2).2
  · apply absurd _ absent'
    rw [cut]
    simp

/-- A name that a mark follows ends no export, though the word `export` may end the name. -/
theorem quiet_of_name {front name pad rest : List Char} {mark : Char} (absent : 'x' ∉ front)
    (named : ∀ c ∈ name, Name.isTail c = true) (padded : ∀ c ∈ pad, Text.isBlank c = true)
    (outside : Name.isTail mark = false) (visible : Text.isBlank mark = false)
    (noBrace : mark ≠ '\x7b') (absent' : 'x' ∉ pad ++ mark :: rest)
    (edge : (front ++ (name ++ (pad ++ mark :: rest))).getLast?.any Text.isWord = false)
    (form : Form) (before : Option Char) :
    Quiet form.pattern before (front ++ (name ++ (pad ++ mark :: rest))) := by
  intro start tail back index split nonempty
  refine matchAt_eq_none fun piece rest' captures starts spells => ?_
  obtain ⟨gap, c, more, isGap, whole, kind⟩ := Form.exists_mark_of_spells spells
  have last : tail.getLast?.any Text.isWord = false :=
    Text.any_isWord_getLast?_of_append (split ▸ edge)
  obtain ⟨behind, rfl, same⟩ := Text.exists_append_of_getLast? (starts.trans whole)
    isWord_of_mem_export nonempty last
  have free : behind.head?.any Name.isTail = false := by
    obtain ⟨blank, gap, rfl⟩ := List.exists_cons_of_ne_nil isGap.1
    cases behind with
    | nil => rfl
    | cons d behind =>
      obtain rfl : d = blank := (List.cons.inj same).1
      exact Name.isTail_eq_false_of_isBlank (isGap.2 d List.mem_cons_self)
  -- The word can only be the end of the name: no other part of the line has an `x`. Then the mark
  -- behind the name would have to open a list or a heading.
  obtain rfl := eq_of_append_export absent named absent'
    (Name.head?_isTail_of_padded padded outside rest) free split.symm
  have stops : (c :: more).head?.any Text.isBlank = false := by
    rcases kind with word | rfl
    · exact Name.isBlank_eq_false_of_isTail (by simp [Name.isTail, word])
    · rfl
  rw [List.append_assoc] at same
  obtain ⟨-, marks⟩ := Text.eq_of_append_run padded
    (by exact visible : (mark :: (rest ++ back)).head?.any Text.isBlank = false) isGap.2 stops same
  obtain rfl : mark = c := (List.cons.inj marks).1
  rcases kind with word | brace
  · rw [Name.isTail, word] at outside
    cases outside
  · exact noBrace brace

/-- A line of code with a name in it, before a text that shows no `x`. -/
theorem exists_segments_of_named {opening name pad more : List Char} {mark : Char}
    {segments : List Segment} (named : ∀ c ∈ name, Name.isTail c = true)
    (absent : 'x' ∉ displayOf segments)
    (edge : (displayOf segments).getLast?.any Text.isWord = false)
    (code : ∀ c ∈ opening ++ (pad ++ mark :: more), isInert c = true ∧ c ≠ 'x')
    (padded : ∀ c ∈ pad, Text.isBlank c = true)
    (marks : Name.isTail mark = false ∧ Text.isBlank mark = false ∧ mark ≠ '\x7b')
    (ends : (mark :: more).getLast?.any Text.isWord = false) :
    ∃ line, Literal.textOf line =
        opening ++ (name ++ (pad ++ mark :: more)) ++ Literal.textOf segments ∧
      ∀ form before, Quiet (Form.pattern form) before (displayOf line) := by
  obtain ⟨opens, follows⟩ := List.forall_mem_append.mp code
  have inert : ∀ c ∈ name, isInert c = true :=
    fun c member => isInert_of_accept (by decide) (named c member)
  have own : (opening ++ (name ++ pad) ++ mark :: more).getLast?.any Text.isWord = false := by
    rw [List.getLast?_append_of_ne_nil _ (List.cons_ne_nil _ _)]
    exact ends
  have last := Text.getLast?_any_append_both own edge
  refine ⟨.code opening (fun c member => (opens c member).1) :: .code name inert ::
    .code (pad ++ mark :: more) (fun c member => (follows c member).1) :: segments, ?_,
    fun form before => ?_⟩
  · simp [Literal.textOf, Segment.text]
  · have quiet := @quiet_of_name opening name pad (more ++ displayOf segments) mark
      (fun member => (opens 'x' member).2 rfl) named padded marks.1 marks.2.1 marks.2.2
      (fun member => ?_) (by simpa using last) form before
    · simpa using quiet
    · rcases List.mem_append.mp (by simpa using member : 'x' ∈ (pad ++ mark :: more) ++
        displayOf segments) with member | member
      · exact (follows 'x' member).2 rfl
      · exact absent member

theorem isTail_of_isIdentifier {text : List Char} (identifier : Name.isIdentifier text = true) :
    ∀ c ∈ text, Name.isTail c = true :=
  fun c member =>
    Name.isTail_of_isIdentifierChar ((Name.isIdentifier_iff.mp identifier).2 c member)

/-- A character of a specifier between single quotes. -/
def sourceItem (c : Char) : StringItem :=
  if c = '\\' ∨ c = '\'' then .escape c else .char c

theorem text_sourceItem (c : Char) : (sourceItem c).text = ImportBlock.escapeChar c := by
  unfold sourceItem ImportBlock.escapeChar
  split <;> rfl

theorem fits_sourceItem {c : Char} (inside : c ≠ '\n') : (sourceItem c).fits .single = true := by
  unfold sourceItem
  split_ifs with escaped
  · rcases escaped with rfl | rfl <;> decide
  · rw [not_or] at escaped
    simp [StringItem.fits, Quote.char, escaped, inside]

theorem exists_quoted_source {source : String} (oneLine : '\n' ∉ source.toList) :
    ∃ string : Quoted, string.text = ImportBlock.quoteSource source := by
  have fits : ∀ item ∈ source.toList.map sourceItem, item.fits .single = true := by
    intro item member
    obtain ⟨c, written, rfl⟩ := List.mem_map.mp member
    exact fits_sourceItem (ne_of_mem_of_not_mem written oneLine)
  have escaped : (source.toList.map sourceItem).flatMap StringItem.text =
      source.toList.flatMap ImportBlock.escapeChar := by
    rw [List.flatMap_map]
    exact List.flatMap_congr fun c _ => text_sourceItem c
  refine ⟨⟨.single, source.toList.map sourceItem, fits⟩, ?_⟩
  rw [Quoted.text, escaped]
  rfl

theorem exists_quoted_name {name : List Char} (identifier : Name.isIdentifier name = true) :
    ∃ string : Quoted, string.text = '\'' :: (name ++ ['\'']) := by
  have outside : ∀ d ∈ ['\\', '\'', '\n'], Name.isTail d = false := by decide
  have fits : ∀ item ∈ name.map StringItem.char, item.fits .single = true := by
    intro item member
    obtain ⟨c, written, rfl⟩ := List.mem_map.mp member
    have inside := isTail_of_isIdentifier identifier c written
    have other : c ∉ ['\\', '\'', '\n'] := by
      intro known
      rw [outside c known] at inside
      cases inside
    simpa [StringItem.fits, Quote.char, and_assoc] using other
  have same : (name.map StringItem.char).flatMap StringItem.text = name := by
    rw [List.flatMap_map]
    exact List.flatMap_singleton' name
  refine ⟨⟨.single, name.map StringItem.char, fits⟩, ?_⟩
  rw [Quoted.text, same]
  rfl

/-- What a line refers to shows marks and the word `import`. -/
theorem exists_segments_of_reference {entry : Entry} (plain : entry.Plain) :
    ∃ segments, Literal.textOf segments = Declarations.reference entry ++ [']'] ++ ['\n'] ∧
      'x' ∉ displayOf segments ∧ (displayOf segments).getLast?.any Text.isWord = false := by
  obtain ⟨source, source_eq⟩ := exists_quoted_source plain.oneLine
  obtain ⟨name, name_eq⟩ := exists_quoted_name plain.name
  refine ⟨[.code "import(".toList (by decide), .quoted source, .code ")[".toList (by decide),
    .quoted name, .code "]\n".toList (by decide)], ?_, ?_, ?_⟩
  · have split : Declarations.reference entry ++ [']'] ++ ['\n'] = "import(".toList ++
        (ImportBlock.quoteSource entry.source ++ (")[".toList ++
          ('\'' :: (entry.name.toList ++ ['\'']) ++ ("]\n".toList ++ [])))) := by
      unfold Declarations.reference
      simp
    rw [split, ← source_eq, ← name_eq]
    rfl
  · simp [not_mem_quoted]
  · have shown := @Text.getLast?_any_append Text.isWord ("import(".toList ++ (source.display ++
      (")[".toList ++ name.display))) "]\n".toList (by decide) (by decide)
    simpa using shown

/-- The line of an entry shows its local name with a mark behind it, so no export starts in it. -/
theorem exists_segments_of_line {entry : Entry} (plain : entry.Plain) :
    ∃ segments, Literal.textOf segments = Declarations.line entry ∧
      ∀ form before, Quiet (Form.pattern form) before (displayOf segments) := by
  obtain ⟨segments, written, absent, edge⟩ := exists_segments_of_reference plain
  have named := isTail_of_isIdentifier plain.localName
  cases isType : entry.isType with
  | true =>
    rw [Declarations.line_eq_of_isType isType]
    obtain ⟨line, line_eq, quiet⟩ := @exists_segments_of_named "  type ".toList _ [' '] [' '] '=' _
      named absent edge (by decide) (by decide) (by decide) (by decide)
    refine ⟨line, ?_, quiet⟩
    rw [line_eq, written]
    simp
  | false =>
    rw [Declarations.line_eq_of_not_isType isType]
    obtain ⟨line, line_eq, quiet⟩ := @exists_segments_of_named "  const ".toList _ []
      " typeof ".toList ':' _ named absent edge (by decide) (by decide) (by decide) (by decide)
    refine ⟨line, ?_, quiet⟩
    rw [line_eq, written]
    simp

theorem exists_segments_of_lines {entries : List Entry} (plain : ∀ entry ∈ entries, entry.Plain) :
    ∃ segments, Literal.textOf segments = entries.flatMap Declarations.line ∧
      ∀ form before, Quiet (Form.pattern form) before (displayOf segments) := by
  induction entries with
  | nil => exact ⟨[], rfl, fun form before => silent_nil.quiet rfl form before⟩
  | cons entry entries ih =>
    obtain ⟨own, written, quiet⟩ := exists_segments_of_line (plain entry List.mem_cons_self)
    obtain ⟨others, written', quiet'⟩ := ih fun other member =>
      plain other (List.mem_cons_of_mem entry member)
    refine ⟨own ++ others, ?_, fun form before => ?_⟩
    · rw [List.flatMap_cons, ← written, ← written']
      exact List.flatMap_append
    · rw [displayOf_append]
      exact (quiet form before).append (quiet' form _)

/-- The banner and its line end. -/
def bannerLayout : Layout :=
  [.lineComment " Generated by auto-imports-native. Do not edit.".toList (by decide)]

theorem isBlank_space : Text.isBlank ' ' = true := by
  decide

/-- The line `export {}` and the empty line behind it. -/
def emptyExport : StatementLine where
  statement := .listed
    { gap := ⟨[.blank ' ' isBlank_space], by decide⟩
      typed := none
      slots := []
      ordinary := by simp
      origin := none }
  trailing := [.blank '\n' (by decide), .blank '\n' (by decide)]

theorem silent_blockHead : Silent "declare global \x7b\n".toList := by
  have word := silent_nil.append_parted
    (by decide : ∀ c ∈ "global".toList, Text.isWord c = true) (by decide) (by decide)
    (by decide : ∀ c ∈ " \x7b\n".toList, Text.isWord c = false)
  exact word.append_parted (by decide : ∀ c ∈ "declare".toList, Text.isWord c = true) (by decide)
    (by decide) (by decide : ∀ c ∈ " ".toList, Text.isWord c = false)

/-- A script in which a line without entries and a quiet text follow layout has no exports. -/
theorem entries_eq_nil_of_quiet {leading : Layout} {line : StatementLine} {block : List Segment}
    {source : String} {types : Bool} (nothing : line.statement.entries source types = [])
    (follows : (displayOf block).head?.any goesOn = false)
    (edge : (displayOf block).getLast?.any Text.isWord = false)
    (quiet : ∀ form before, Quiet (Form.pattern form) before (displayOf block)) :
    entries (Literal.textOf (leading.segments ++ (line.segments ++ block))) source types = [] := by
  refine entries_eq_nil fun form => ?_
  rw [mask_textOf]
  have blank : Silent leading.display := by
    have silent := silent_nil.append_outside (@isWord_of_mem_layout leading)
    rwa [List.append_nil] at silent
  have none : line.statement.entriesOf source types form = [] := by
    rw [Statement.entriesOf, nothing, ite_self]
  have last := getLast?_isWord_layout leading
  obtain ⟨text, cons, -⟩ := line.exists_cons
  have first : (displayOf line.segments ++ displayOf block).head?.any goesOn = false := by
    rw [cons]
    rfl
  have both := (findsAt_line (displayOf (leading.segments ++ (line.segments ++ block))) source types
    form line).append (findsAt_nil edge fun before _ => quiet form before) follows
  have finds := FindsAt.append (findsAt_nil last fun before _ => blank.quiet last form before) both
    first
  simpa [none, spread] using finds.flatMap_allMatches

/-- A declaration file of plain entries has no exports. -/
theorem entries_declarations {registry : Registry}
    (plain : ∀ entry ∈ registry.entries, entry.Plain) (source : String) (types : Bool) :
    entries (Declarations.text registry) source types = [] := by
  -- The file is read as a script: a comment, an empty export list, and a block in which nothing is
  -- an export.
  obtain ⟨lines, written, quiet⟩ := exists_segments_of_lines fun entry member =>
    plain entry (Declarations.mem_sorted.mp member)
  obtain ⟨block, inner, shown⟩ : ∃ block, Literal.textOf block = "declare global \x7b\n".toList ++
        ((Declarations.sorted registry.entries).flatMap Declarations.line ++ "\x7d\n".toList) ∧
      displayOf block = "declare global \x7b\n".toList ++ displayOf lines ++ "\x7d\n".toList :=
    ⟨.code "declare global \x7b\n".toList (by decide) ::
      (lines ++ [.code "\x7d\n".toList (by decide)]),
      by simp [Literal.textOf, Segment.text, ← written], by simp⟩
  have banner : Literal.textOf bannerLayout.segments =
      Declarations.banner.toList ++ ['\n'] := by decide
  have statement : Literal.textOf emptyExport.segments = "export \x7b\x7d\n\n".toList := by decide
  have whole : Declarations.text registry =
      Literal.textOf (bannerLayout.segments ++ (emptyExport.segments ++ block)) := by
    have split : Literal.textOf (bannerLayout.segments ++ (emptyExport.segments ++ block)) =
        Literal.textOf bannerLayout.segments ++
          (Literal.textOf emptyExport.segments ++ Literal.textOf block) := by
      simp [Literal.textOf]
    rw [split, banner, statement, inner, Declarations.text]
    simp
  have brace := silent_nil.append_outside
    (by decide : ∀ c ∈ "\x7d\n".toList, Text.isWord c = false)
  rw [whole]
  refine entries_eq_nil_of_quiet rfl ?_ ?_ fun form before => ?_
  · rw [shown]
    rfl
  · rw [shown]
    exact Text.getLast?_any_append (by decide) (by decide)
  · rw [shown]
    exact ((silent_blockHead.quiet (by decide) form before).append (quiet form _)).append
      (brace.quiet (by decide) form _)

end Export

end ImportSupply
