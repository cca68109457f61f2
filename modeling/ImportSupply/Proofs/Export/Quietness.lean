import ImportSupply.Proofs.Export.ListReading
import ImportSupply.Proofs.Text.WholeWord

/-!
# Where no export starts

Every export starts with the word `export`. Behind its own first word an export statement does not
hold that word (`Statement.silent_body`), since its keywords, its names and the words of its lists
are others. So no export starts there, whatever the pattern and whatever follows
(`Silent.quiet`).
-/

namespace ImportSupply.Export

open Pattern Literal

/-- A text without the word `export`. -/
def Silent (text : List Char) : Prop :=
  ¬Text.HasWord "export".toList text

/-- A text that does not start in the middle of a word. -/
def Apart (text : List Char) : Prop :=
  text.head?.any Text.isWord = false

theorem isWord_of_mem_export : ∀ c ∈ "export".toList, Text.isWord c = true := by
  decide

section

variable {text rest : List Char}

theorem silent_nil : Silent [] :=
  Text.not_hasWord_of_isWord_eq_false (by decide) isWord_of_mem_export (by simp)

/-- Marks and blanks in front of a text make no word. -/
theorem Silent.append_outside (outside : ∀ c ∈ text, Text.isWord c = false) (silent : Silent rest) :
    Silent (text ++ rest) := by
  intro has
  have border : text.getLast?.any Text.isWord = false := by
    rw [Option.any_eq_false]
    intro c last
    simpa using outside c (List.mem_of_getLast? last)
  rcases has.of_append isWord_of_mem_export (.inl border) with has | has
  · exact Text.not_hasWord_of_isWord_eq_false (by decide) isWord_of_mem_export outside has
  · exact silent has

/-- Nor does another word. -/
theorem Silent.append_word (inside : ∀ c ∈ text, Text.isWord c = true)
    (other : text ≠ "export".toList) (apart : Apart rest) (silent : Silent rest) :
    Silent (text ++ rest) := by
  intro has
  rcases has.of_append isWord_of_mem_export (.inr apart) with has | has
  · exact other (has.eq_of_isWord inside).symm
  · exact silent has

theorem apart_of_outside (nonempty : text ≠ []) (outside : ∀ c ∈ text, Text.isWord c = false)
    (rest : List Char) : Apart (text ++ rest) := by
  rw [Apart, List.head?_append_of_ne_nil _ nonempty, List.head?_eq_some_head nonempty]
  exact outside _ (List.head_mem nonempty)

theorem Apart.append_outside (outside : ∀ c ∈ text, Text.isWord c = false) (apart : Apart rest) :
    Apart (text ++ rest) := by
  by_cases empty : text = []
  · rwa [empty]
  · exact apart_of_outside empty outside rest

end

theorem isWord_of_mem_layout {layout : Layout} : ∀ c ∈ layout.display, Text.isWord c = false :=
  fun _ member => Text.isWord_eq_false_of_isBlank (Layout.isBlank_of_mem_display member)

theorem isWord_of_mem_quoted {string : Quoted} : ∀ c ∈ string.display, Text.isWord c = false := by
  intro c member
  have quote : Text.isWord string.quote.char = false := by
    cases string.quote <;> decide
  simp only [Quoted.display, List.mem_cons, List.mem_append, List.not_mem_nil, or_false] at member
  rcases member with rfl | member | rfl
  · exact quote
  · rcases Quoted.mem_shownBody member with blank | rfl
    · exact Text.isWord_eq_false_of_isBlank blank
    · decide
  · exact quote

theorem isWord_of_isSeparator {c : Char} (separates : isSeparator c = true) :
    Text.isWord c = false := by
  have outside := isTail_eq_false_of_isSeparator separates
  rw [Name.isTail, Bool.or_eq_false_iff] at outside
  exact outside.1

theorem IsOrdinary.silent_append {bound : Binding.Bindable} (ordinary : IsOrdinary bound)
    {rest : List Char} (apart : Apart rest) (silent : Silent rest) : Silent (bound.text ++ rest) :=
  silent.append_word ordinary.isWord ordinary.ne_export apart

/-- A word and what parts it from the next one. -/
theorem Silent.append_parted {word gap rest : List Char} (silent : Silent rest)
    (inside : ∀ c ∈ word, Text.isWord c = true) (other : word ≠ "export".toList)
    (nonempty : gap ≠ []) (outside : ∀ c ∈ gap, Text.isWord c = false) :
    Silent (word ++ (gap ++ rest)) :=
  (silent.append_outside outside).append_word inside other (apart_of_outside nonempty outside rest)

theorem Keyword.silent_append (keyword : Keyword) {gap rest : List Char} (nonempty : gap ≠ [])
    (outside : ∀ c ∈ gap, Text.isWord c = false) (silent : Silent rest) :
    Silent (keyword.word.toList ++ (gap ++ rest)) :=
  silent.append_parted Keyword.isWord_of_mem (by cases keyword <;> decide) nonempty outside

/-! ## Exports of one name -/

namespace Naming

theorem isWord_of_mem_ending (naming : Naming) :
    ∀ c ∈ displayOf naming.ending.segments, Text.isWord c = false := by
  intro c member
  have ends := naming.ends
  have layout {layout : Layout} := @isWord_of_mem_layout layout
  cases ending_eq : naming.ending with
  | call before inside between body =>
    simp only [ending_eq, Binding.Ending.segments, displayOf_append, displayOf_cons, displayOf_layout,
      displayOf_nil, Segment.display_code, List.mem_append, List.mem_singleton,
      List.not_mem_nil, or_false] at member
    rcases member with member | rfl | member | rfl | member | rfl | member | rfl
    all_goals first | exact layout c member | decide
  | block before body =>
    simp only [ending_eq, Binding.Ending.segments, displayOf_append, displayOf_cons, displayOf_layout,
      displayOf_nil, Segment.display_code, List.mem_append, List.mem_singleton,
      List.not_mem_nil, or_false] at member
    rcases member with member | rfl | member | rfl
    all_goals first | exact layout c member | decide
  | value assigned =>
    rw [ending_eq, Binding.Ending.segments, assigned.displayOf_segments] at member
    simp only [List.mem_append, List.mem_cons] at member
    rcases member with member | rfl | member | member
    · exact layout c member
    · decide
    · exact layout c member
    · exact isWord_of_mem_quoted c member
  | parameters before inner allowed assigned =>
    rw [ending_eq] at ends
    cases ends

theorem silent_leadSegments (leads : List (Keyword × Spacing)) {rest : List Char}
    (silent : Silent rest) : Silent (displayOf (leadSegments leads) ++ rest) := by
  induction leads with
  | nil => exact silent
  | cons lead leads ih =>
    obtain ⟨keyword, spacing⟩ := lead
    rw [displayOf_leadSegments_cons, List.append_assoc, List.append_assoc]
    exact keyword.silent_append spacing.display_ne_nil (@isWord_of_mem_layout spacing.layout) ih

theorem silent_body (naming : Naming) {rest : List Char} (silent : Silent rest) :
    Silent (displayOf naming.body ++ rest) := by
  have separator : ∀ c ∈ displayOf naming.separator.segments, Text.isWord c = false :=
    fun c member => isWord_of_isSeparator (isSeparator_of_mem c member)
  have apart : Apart (displayOf naming.ending.segments ++ rest) := by
    obtain ⟨pad, mark, more, begins, blank, outside⟩ := naming.ending.exists_mark
    rw [Name.isTail, Bool.or_eq_false_iff] at outside
    rw [begins, List.append_assoc]
    exact Apart.append_outside (fun c member => Text.isWord_eq_false_of_isBlank (blank c member))
      outside.1
  have named := naming.ordinary.silent_append apart
    (silent.append_outside naming.isWord_of_mem_ending)
  have keyword := naming.keyword.silent_append separator_ne_nil separator named
  have whole := silent_leadSegments naming.leads keyword
  rw [displayOf_body, displayOf_opening]
  simpa using whole

end Naming

/-! ## Lists -/

section

variable {rest : List Char}

theorem apart_renamed (specifier : Binding.Specifier) (apart : Apart rest) :
    Apart (displayOf specifier.renamedSegments ++ rest) := by
  cases given : specifier.renamed with
  | none =>
    rw [Binding.Specifier.renamedSegments, given]
    exact apart
  | some renamed =>
    have start := Apart.append_outside (@isWord_of_mem_layout renamed.before)
      (apart_of_outside (by decide) (by decide : ∀ c ∈ [' '], Text.isWord c = false)
        ("as ".toList ++ (renamed.after.display ++ (renamed.outer.text ++ rest))))
    rw [specifier.displayOf_renamedSegments given]
    simpa using start

theorem silent_renamed {specifier : Binding.Specifier}
    (ordinary : ∀ renamed ∈ specifier.renamed, IsOrdinary renamed.outer) (apart : Apart rest)
    (silent : Silent rest) : Silent (displayOf specifier.renamedSegments ++ rest) := by
  have space : ∀ c ∈ [' '], Text.isWord c = false := by decide
  cases given : specifier.renamed with
  | none =>
    rw [Binding.Specifier.renamedSegments, given]
    exact silent
  | some renamed =>
    have behind := ((ordinary renamed given).silent_append apart silent).append_outside
      (@isWord_of_mem_layout renamed.after)
    have word := behind.append_parted (by decide : ∀ c ∈ "as".toList, Text.isWord c = true)
      (by decide) (by decide) space
    have whole := (word.append_outside space).append_outside (@isWord_of_mem_layout renamed.before)
    rw [specifier.displayOf_renamedSegments given]
    simpa using whole

theorem silent_typed (specifier : Binding.Specifier) (silent : Silent rest) :
    Silent (displayOf specifier.typeSegments ++ rest) := by
  cases given : specifier.typed with
  | none =>
    rw [Binding.Specifier.typeSegments, given]
    exact silent
  | some between =>
    have word := (silent.append_outside (@isWord_of_mem_layout between)).append_parted
      (by decide : ∀ c ∈ "type".toList, Text.isWord c = true) (by decide) (by decide)
      (by decide : ∀ c ∈ [' '], Text.isWord c = false)
    simpa [Binding.Specifier.typeSegments, given] using word

/-- What stands around the name of a specifier. -/
theorem silent_specifier {specifier : Binding.Specifier}
    (ordinary : IsOrdinarySlot (.named specifier)) (apart : Apart rest) (silent : Silent rest) :
    Silent (displayOf specifier.segments ++ rest) := by
  obtain ⟨own, outer⟩ := ordinary
  have trailing_apart : Apart (specifier.trailing.display ++ rest) :=
    apart.append_outside isWord_of_mem_layout
  have trailing := silent.append_outside (@isWord_of_mem_layout specifier.trailing)
  have renamed := silent_renamed outer trailing_apart trailing
  have named := own.silent_append (apart_renamed specifier trailing_apart) renamed
  have whole := (silent_typed specifier named).append_outside
    (@isWord_of_mem_layout specifier.leading)
  rw [specifier.displayOf_segments, Binding.Specifier.core, Binding.Specifier.untyped]
  simpa using whole

theorem silent_slot {slot : Binding.Slot} (ordinary : IsOrdinarySlot slot) (apart : Apart rest)
    (silent : Silent rest) : Silent (displayOf slot.segments ++ rest) := by
  cases slot with
  | vacant layout =>
    rw [Binding.Slot.segments, displayOf_layout]
    exact silent.append_outside isWord_of_mem_layout
  | named specifier => exact silent_specifier ordinary apart silent

theorem silent_listText {slots : List Binding.Slot}
    (ordinary : ∀ slot ∈ slots, IsOrdinarySlot slot) (apart : Apart rest) (silent : Silent rest) :
    Silent (Binding.listText slots ++ rest) := by
  induction slots with
  | nil => exact silent
  | cons slot slots ih =>
    have first := ordinary slot List.mem_cons_self
    have later := ih fun slot member => ordinary slot (List.mem_cons_of_mem _ member)
    cases slots with
    | nil => simpa [Binding.listText] using silent_slot first apart silent
    | cons next slots =>
      have comma := later.append_outside (by decide : ∀ c ∈ [','], Text.isWord c = false)
      have whole := silent_slot first (apart_of_outside (by decide) (by decide) _) comma
      simpa [Binding.listText, List.intercalate_cons_cons] using whole

theorem silent_origin (origin : Origin) (silent : Silent rest) :
    Silent (displayOf (Listing.originSegments (some origin)) ++ rest) := by
  have behind := (silent.append_outside (@isWord_of_mem_quoted origin.source)).append_outside
    (@isWord_of_mem_layout origin.after)
  have word := behind.append_word (by decide : ∀ c ∈ "from".toList, Text.isWord c = true)
    (by decide) (by simpa [Apart] using origin.head?_isWord rest)
  have whole := word.append_outside (@isWord_of_mem_layout origin.before)
  rw [displayOf_origin]
  simpa using whole

theorem Listing.silent_body (listing : Listing) (silent : Silent rest) :
    Silent (displayOf listing.body ++ rest) := by
  have brace : ∀ c ∈ ['\x7d'], Text.isWord c = false := by decide
  have origin : Silent (displayOf (originSegments listing.origin) ++ rest) := by
    cases listing.origin with
    | none => exact silent
    | some origin => exact silent_origin origin silent
  have list := silent_listText listing.ordinary (apart_of_outside (by decide) brace _)
    (origin.append_outside brace)
  have opened := list.append_outside (by decide : ∀ c ∈ ['\x7b'], Text.isWord c = false)
  have typed : Silent (displayOf (typeSegments listing.typed) ++ (['\x7b'] ++
      (Binding.listText listing.slots ++ (['\x7d'] ++ (displayOf (originSegments listing.origin) ++
        rest))))) := by
    cases listing.typed with
    | none => exact opened
    | some spacing =>
      have word := Keyword.typeAlias.silent_append spacing.display_ne_nil
        (@isWord_of_mem_layout spacing.layout) opened
      simpa [typeSegments, Keyword.segment, Spacing.display] using word
  simpa [body, Binding.displayOf_listSegments] using typed

end

/-! ## Statements -/

theorem Statement.silent_body (statement : Statement) {rest : List Char} (silent : Silent rest) :
    Silent (displayOf statement.body ++ rest) := by
  cases statement with
  | named naming => exact naming.silent_body silent
  | listed listing => exact listing.silent_body silent
  | everything gap origin =>
    have whole := (silent_origin origin silent).append_outside
      (by decide : ∀ c ∈ ['*'], Text.isWord c = false)
    simpa [body] using whole

/-- Patterns of exports start with the word `export`, as a whole word. -/
theorem Form.exists_of_spells {form : Form} {before : Option Char} {piece rest : List Char}
    {captures : List (Capture Char)} (spells : form.pattern.Spells before piece rest captures) :
    before.any Text.isWord = false ∧ ∃ gap more, IsGap gap ∧
      piece ++ rest = "export".toList ++ (gap ++ more) := by
  by_cases names : form = .list
  · subst names
    obtain ⟨_, _, _, _, edge, behindEdge, rfl, rfl⟩ := spells_all_cons.mp spells
    obtain ⟨outside, rfl, rfl⟩ := spells_wordEdge.mp edge
    obtain ⟨_, _, _, _, word, behindWord, rfl, rfl⟩ := spells_all_cons.mp behindEdge
    obtain ⟨rfl, rfl⟩ := spells_text.mp word
    obtain ⟨gap, later, _, _, blank, -, rfl, rfl⟩ := spells_all_cons.mp behindWord
    obtain ⟨isGap, -, rfl⟩ := spells_gap.mp blank
    have inside : Text.isWord 'e' = true := by decide
    exact ⟨by simpa [inside] using outside, gap, later ++ rest, isGap, by simp⟩
  · obtain ⟨gap, opening, named, closing, rfl, outside, isGap, -⟩ := (spells_iff names).mp spells
    exact ⟨outside, gap, opening ++ (named ++ (closing ++ rest)), isGap, by simp⟩

/-- In a text without the word `export` no export starts. -/
theorem Silent.quiet {text : List Char} (silent : Silent text)
    (edge : text.getLast?.any Text.isWord = false) (form : Form) (before : Option Char) :
    Quiet form.pattern before text := by
  intro front tail back index split nonempty
  refine matchAt_eq_none fun piece rest captures starts spells => ?_
  obtain ⟨outside, gap, more, isGap, whole⟩ := Form.exists_of_spells spells
  have last : tail.getLast?.any Text.isWord = false :=
    Text.any_isWord_getLast?_of_append (split ▸ edge)
  obtain ⟨behind, rfl, same⟩ := Text.exists_append_of_getLast? (starts.trans whole)
    isWord_of_mem_export nonempty last
  refine silent ⟨front, behind, split, ?_, ?_⟩
  · by_cases empty : front = []
    · rw [empty]
      rfl
    · rw [List.getLast?_eq_some_getLast empty]
      simpa [lastOf, List.getLast?_eq_some_getLast empty] using outside
  · have apart := apart_of_outside isGap.1
      (fun c member => Text.isWord_eq_false_of_isBlank (isGap.2 c member)) more
    rw [← same] at apart
    exact Text.any_isWord_head?_of_append apart

end ImportSupply.Export
