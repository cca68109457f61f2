import ImportSupply.Proofs.Binding.DeclarationReading
import ImportSupply.Proofs.Export.NamingReading

/-!
# Exports of one name that are read

An export of one name is spelled by the pattern of its own form (`Naming.exists_spells`). What any
pattern reads where such a statement stands is the statement's own name, read by the pattern of its
form; the one exception is the word `enum`, which is read as a variable behind `const`
(`Naming.reads_of_spells`). Where a list or a star stands, no name is read (`not_spells_of_mark`).
-/

namespace ImportSupply.Export

open Pattern Literal

theorem isGap_display (spacing : Spacing) : IsGap spacing.display :=
  ⟨spacing.display_ne_nil, fun _ => Spacing.isBlank_of_mem_display⟩

theorem head?_isBlank_of_isSeparator {text : List Char}
    (stops : text.head?.any isSeparator = false) : text.head?.any Text.isBlank = false := by
  cases text with
  | nil => rfl
  | cons c text =>
    by_contra blank
    rw [List.head?_cons, Option.any_some, isSeparator_of_isBlank (by simpa using blank)] at stops
    cases stops

namespace Naming

/-! ## The keywords of a statement -/

theorem displayOf_leadSegments_cons (keyword : Keyword) (spacing : Spacing)
    (leads : List (Keyword × Spacing)) :
    displayOf (leadSegments ((keyword, spacing) :: leads)) =
      keyword.word.toList ++ (spacing.display ++ displayOf (leadSegments leads)) := by
  simp [leadSegments, Keyword.segment]

theorem keyed_leadSegments (leads : List (Keyword × Spacing)) {keywords : List Keyword}
    {opening core : List Char} (keyed : Keyed keywords opening core)
    (stops : core.head?.any isSeparator = false) :
    Keyed (leads.map Prod.fst ++ keywords) (displayOf (leadSegments leads) ++ opening) core := by
  induction leads with
  | nil => exact keyed
  | cons lead leads ih =>
    obtain ⟨keyword, spacing⟩ := lead
    rw [displayOf_leadSegments_cons, List.append_assoc, List.append_assoc]
    exact ih.cons_gap keyword (isGap_display spacing) stops

variable (naming : Naming)

theorem displayOf_opening :
    displayOf naming.opening = displayOf (leadSegments naming.leads) ++
      (naming.keyword.word.toList ++ displayOf naming.separator.segments) := by
  simp [opening, Keyword.segment]

theorem displayOf_body :
    displayOf naming.body = displayOf naming.opening ++
      (naming.bound.text ++ displayOf naming.ending.segments) := by
  simp [body]

theorem isSeparator_of_mem {separator : Binding.Separator} :
    ∀ c ∈ displayOf separator.segments, isSeparator c = true := by
  have blank {layout : Layout} : ∀ c ∈ layout.display, isSeparator c = true := fun _ member =>
    isSeparator_of_isBlank (Layout.isBlank_of_mem_display member)
  intro c member
  cases separator with
  | spaced spacing =>
    rw [Binding.Separator.segments, displayOf_spacing] at member
    exact blank c member
  | starred before after =>
    simp only [Binding.Separator.segments, displayOf_append, displayOf_cons, displayOf_layout,
      Segment.display_code, List.mem_append, List.mem_singleton] at member
    rcases member with member | rfl | member
    · exact blank c member
    · rfl
    · exact blank c member

theorem separator_ne_nil {separator : Binding.Separator} : displayOf separator.segments ≠ [] := by
  cases separator with
  | spaced spacing =>
    rw [Binding.Separator.segments, displayOf_spacing]
    exact spacing.display_ne_nil
  | starred before after => simp [Binding.Separator.segments]

/-- Whatever words stand in front of the last keyword, a name follows it. -/
theorem keyed_append (leads : List (Keyword × Spacing)) (back : List Char) :
    Keyed (leads.map Prod.fst ++ [naming.keyword]) (displayOf (leadSegments leads) ++
      (naming.keyword.word.toList ++ displayOf naming.separator.segments))
      (naming.bound.text ++ back) := by
  have stops := head?_isSeparator_of_isBindable naming.bound.bindable back
  have last : Keyed [naming.keyword]
      (naming.keyword.word.toList ++ (displayOf naming.separator.segments ++ []))
      (naming.bound.text ++ back) :=
    .cons isSeparator_of_mem (fun _ => separator_ne_nil) stops .nil
  rw [List.append_nil] at last
  exact keyed_leadSegments leads last stops

theorem keyed (back : List Char) :
    Keyed (naming.leads.map Prod.fst ++ [naming.keyword]) (displayOf naming.opening)
      (naming.bound.text ++ back) := by
  rw [displayOf_opening]
  exact naming.keyed_append naming.leads back

theorem head?_keywords (leads : List (Keyword × Spacing)) (back : List Char) :
    (displayOf (leadSegments leads) ++ (naming.keyword.word.toList ++
      displayOf naming.separator.segments) ++ (naming.bound.text ++ back)).head?.any
        isSeparator = false :=
  (naming.keyed_append leads back).head? (head?_isSeparator_of_isBindable naming.bound.bindable back)

/-- What follows the name starts with no character of names. -/
theorem head?_ending (back : List Char) :
    (displayOf naming.ending.segments ++ back).head?.any Name.isTail = false := by
  obtain ⟨pad, mark, more, begins, blank, outside⟩ := naming.ending.exists_mark
  rw [begins, List.append_assoc, List.cons_append]
  exact Name.head?_isTail_of_padded blank outside _

/-! ## A statement is spelled by its pattern -/

theorem leads_displayOf {leads : List (Keyword × Spacing)} {keywords : List Keyword}
    (ordered : (leads.map Prod.fst).Sublist keywords) {rest : List Char}
    (stops : rest.head?.any isSeparator = false) :
    Leads keywords (displayOf (leadSegments leads)) rest := by
  generalize taken_eq : leads.map Prod.fst = taken at ordered
  induction ordered generalizing leads with
  | slnil =>
    rw [List.map_eq_nil_iff.mp taken_eq]
    rfl
  | cons keyword _ ih => exact ⟨[], _, rfl, .inr rfl, ih taken_eq⟩
  | cons_cons keyword _ ih =>
    obtain ⟨⟨_, spacing⟩, others, rfl, rfl, others_eq⟩ := List.map_eq_cons_iff.mp taken_eq
    have next := (keyed_leadSegments others .nil stops).head? stops
    rw [List.append_nil] at next
    refine ⟨_, displayOf (leadSegments others), ?_, .inl ⟨spacing.display, rfl,
      isGap_display spacing, head?_isBlank_of_isSeparator next⟩, ih others_eq⟩
    rw [displayOf_leadSegments_cons, List.append_assoc]

end Naming

/-- The words that a pattern accepts in front of the keyword of a kind. -/
def kindModifiers : Binding.Kind → List Keyword
  | .function => [.async]
  | .objectClass => [.abstract]
  | _ => []

theorem modifies_of_leads {kind : Binding.Kind} {piece rest : List Char}
    (leads : Leads (kindModifiers kind) piece rest) : kind.Modifies piece := by
  cases kind with
  | function | objectClass =>
    obtain ⟨_, _, rfl, ⟨gap, rfl, isGap, -⟩ | rfl, rfl⟩ := leads
    · exact .inr ⟨_, List.mem_singleton.mpr rfl, gap, isGap, List.append_nil _⟩
    · exact .inl rfl
  | binding | enumeration | typeAlias | interface => exact .inl leads

theorem optional_of_leads {keyword : Keyword} {piece rest : List Char}
    (leads : Leads [keyword] piece rest) : Optional keyword piece := by
  obtain ⟨_, _, rfl, ⟨gap, rfl, isGap, -⟩ | rfl, rfl⟩ := leads
  · exact .inr ⟨gap, isGap, List.append_nil _⟩
  · exact .inl rfl

namespace Naming

variable (naming : Naming)

theorem opens_declared {kind : Binding.Kind} (isForm : naming.form = .declared kind)
    (back : List Char) :
    (Form.declared kind).Opens (displayOf naming.opening) (naming.bound.text ++ back) := by
  have known := naming.known
  have separates := naming.separates
  rw [isForm] at known separates
  -- Words in front of the last one come in the order in which the pattern allows them, first those
  -- of an export and then those of the kind.
  have all : ∀ keywords ∈ (Form.declared kind).keywords,
      keywords.dropLast.Sublist (Form.leads kind ++ kindModifiers kind) ∧
        ∀ last ∈ keywords.getLast?, last.word ∈ kind.words := by
    cases kind <;> decide
  obtain ⟨ordered, isWord⟩ := all _ known
  rw [List.dropLast_concat, List.sublist_append_iff] at ordered
  obtain ⟨_, _, split, ordered, ordered'⟩ := ordered
  obtain ⟨leads, modifiers, leads_eq, rfl, rfl⟩ := List.map_eq_append_iff.mp split
  have whole : displayOf naming.opening = displayOf (leadSegments leads) ++
      (displayOf (leadSegments modifiers) ++
        (naming.keyword.word.toList ++ displayOf naming.separator.segments)) := by
    simp [displayOf_opening, leads_eq, leadSegments]
  have fits : naming.separator.fits kind = true := by
    cases separator_eq : naming.separator with
    | spaced spacing => rfl
    | starred before after => simpa [separator_eq, separatesIn, Binding.Separator.fits] using separates
  have modifies := modifies_of_leads (leads_displayOf ordered' (naming.head?_keywords [] back))
  rw [whole]
  exact ⟨_, _, rfl, leads_displayOf ordered (naming.head?_keywords modifiers back),
    naming.bound.head?_isBlank back, _, _, isWord _ (by simp), _, modifies,
    Binding.Separator.separates fits, rfl⟩

theorem exists_default (isForm : naming.form = .default) :
    ∃ gap leads, naming.leads = (.default, gap) :: leads ∧
      (naming.keyword = .function ∧ (leads.map Prod.fst).Sublist [.async] ∨
        naming.keyword = .objectClass ∧ (leads.map Prod.fst).Sublist [.abstract]) := by
  have known := naming.known
  rw [isForm] at known
  have all : ∀ keywords ∈ Form.default.keywords, keywords.dropLast.head? = some .default ∧
      (keywords.getLast? = some .function ∧ keywords.dropLast.tail.Sublist [.async] ∨
        keywords.getLast? = some .objectClass ∧ keywords.dropLast.tail.Sublist [.abstract]) := by
    decide
  obtain ⟨first, later⟩ := all _ known
  rw [List.dropLast_concat] at first later
  rw [List.getLast?_concat, Option.some.injEq, Option.some.injEq] at later
  cases leads_eq : naming.leads with
  | nil =>
    rw [leads_eq] at first
    cases first
  | cons lead leads =>
    obtain ⟨keyword, gap⟩ := lead
    rw [leads_eq, List.map_cons] at first later
    obtain rfl : keyword = .default := Option.some.inj first
    exact ⟨gap, leads, rfl, later⟩

theorem opens_default (isForm : naming.form = .default) (back : List Char) :
    Form.default.Opens (displayOf naming.opening) (naming.bound.text ++ back) := by
  obtain ⟨gap, leads, leads_eq, isBranch⟩ := naming.exists_default isForm
  obtain ⟨spacing, separator_eq⟩ : ∃ spacing, naming.separator = .spaced spacing := by
    have separates := naming.separates
    cases separator_eq : naming.separator with
    | spaced spacing => exact ⟨spacing, rfl⟩
    | starred before after => simp [separator_eq, separatesIn, isForm] at separates
  have isLead {keyword : Keyword} (ordered : (leads.map Prod.fst).Sublist [keyword]) :
      Optional keyword (displayOf (leadSegments leads)) :=
    optional_of_leads (leads_displayOf ordered (naming.head?_keywords [] back))
  refine ⟨gap.display, displayOf (leadSegments leads) ++ naming.keyword.word.toList,
    spacing.display, isGap_display gap, isGap_display spacing, naming.bound.head?_isBlank back,
    ?_, ?_⟩
  · rcases isBranch with ⟨keyword_eq, ordered⟩ | ⟨keyword_eq, ordered⟩
    · exact .inl ⟨_, [], isLead ordered, .inl rfl, by rw [keyword_eq]; rfl⟩
    · exact .inr ⟨_, isLead ordered, by rw [keyword_eq]; rfl⟩
  · rw [displayOf_opening, leads_eq, displayOf_leadSegments_cons, separator_eq,
      Binding.Separator.segments, displayOf_spacing]
    simp [Keyword.word]

theorem form_ne_list : naming.form ≠ .list := by
  intro isList
  have known := naming.known
  rw [isList] at known
  cases known

theorem opens (back : List Char) :
    naming.form.Opens (displayOf naming.opening) (naming.bound.text ++ back) := by
  cases form_eq : naming.form with
  | declared kind => exact naming.opens_declared form_eq back
  | default => exact naming.opens_default form_eq back
  | list => exact absurd form_eq naming.form_ne_list

/-- An exported type has a value. -/
theorem exists_assigned (isType : naming.form = .declared .typeAlias) :
    ∃ assigned, naming.ending = .value assigned := by
  have known := naming.known
  rw [isType] at known
  have all : ∀ keywords ∈ (Form.declared .typeAlias).keywords,
      keywords.getLast? = some .typeAlias := by
    decide
  have last := all _ known
  rw [List.getLast?_concat, Option.some.injEq] at last
  have ends := naming.ends
  rw [last] at ends
  cases ending_eq : naming.ending with
  | value assigned => exact ⟨assigned, rfl⟩
  | call _ _ _ _ | block _ _ | parameters _ _ _ _ =>
    rw [ending_eq] at ends
    cases ends

end Naming

theorem Form.closes_iff {form : Form} (other : form ≠ .declared .typeAlias)
    {closing rest : List Char} : form.Closes closing rest ↔ closing = [] := by
  rcases form with kind | _ | _
  · cases kind with
    | typeAlias => exact absurd rfl other
    | binding | function | objectClass | enumeration | interface => exact .rfl
  · exact .rfl
  · exact .rfl

namespace Naming

variable (naming : Naming)

theorem exists_closing : ∃ closing behind,
    displayOf naming.ending.segments = closing ++ behind ∧
      ∀ rest, naming.form.Closes closing rest := by
  by_cases isType : naming.form = .declared .typeAlias
  · obtain ⟨assigned, ending_eq⟩ := naming.exists_assigned isType
    refine ⟨assigned.before.display ++ ['='], assigned.after.display ++ assigned.value.display,
      ?_, fun rest => ?_⟩
    · simp [ending_eq, Binding.Ending.segments, assigned.displayOf_segments]
    · rw [isType]
      exact ⟨assigned.before.display, [], fun _ => Layout.isBlank_of_mem_display, .inl rfl, rfl⟩
  · exact ⟨[], _, rfl, fun rest => (Form.closes_iff isType).mpr rfl⟩

/-- What closes the form ends in the statement. -/
theorem exists_behind_of_closes {closing rest back : List Char}
    (closes : naming.form.Closes closing rest)
    (same : displayOf naming.ending.segments ++ back = closing ++ rest) :
    ∃ more, rest = more ++ back := by
  by_cases isType : naming.form = .declared .typeAlias
  · obtain ⟨assigned, ending_eq⟩ := naming.exists_assigned isType
    rw [isType] at closes
    obtain ⟨pad, given, padded, isGiven, rfl⟩ := closes
    rw [ending_eq, Binding.Ending.segments, assigned.displayOf_segments, List.append_assoc,
      List.append_assoc, List.append_assoc] at same
    have solid : (given ++ (['='] ++ rest)).head?.any Text.isBlank = false := by
      rcases isGiven with rfl | ⟨inner, pad', -, -, rfl⟩ <;> rfl
    obtain ⟨-, behind⟩ := Text.eq_of_append_run (fun _ => Layout.isBlank_of_mem_display) rfl padded
      solid same
    rcases isGiven with rfl | ⟨inner, pad', -, -, rfl⟩
    · exact ⟨_, (List.cons.inj behind).2.symm⟩
    · cases behind
  · obtain rfl := (Form.closes_iff isType).mp closes
    exact ⟨_, same.symm⟩

theorem displayOf_segments_append (back : List Char) :
    displayOf (Statement.named naming).segments ++ back =
      "export".toList ++ (naming.gap.display ++ (displayOf naming.opening ++
        (naming.bound.text ++ (displayOf naming.ending.segments ++ back)))) := by
  simp [Statement.segments, Statement.gap, Statement.body, displayOf_body]

theorem head?_opening (back : List Char) :
    (displayOf naming.opening ++ (naming.bound.text ++ back)).head?.any Text.isBlank = false :=
  head?_isBlank_of_isSeparator
    ((naming.keyed back).head? (head?_isSeparator_of_isBindable naming.bound.bindable back))

/-- An export of one name is spelled by the pattern of its form. -/
theorem exists_spells {before : Option Char} (outside : before.any Text.isWord = false)
    (back : List Char) :
    ∃ piece rest captures, displayOf (Statement.named naming).segments ++ back = piece ++ rest ∧
      naming.form.pattern.Spells before piece rest captures := by
  obtain ⟨closing, behind, ending_eq, closes⟩ := naming.exists_closing
  refine ⟨_, behind ++ back, _, ?_, (Form.spells_iff naming.form_ne_list).mpr
    ⟨naming.gap.display, displayOf naming.opening, naming.bound.text, closing, rfl, outside,
      isGap_display naming.gap, naming.head?_opening _, naming.opens _, naming.bound.bindable, ?_,
      closes _, rfl⟩⟩
  · rw [displayOf_segments_append, ending_eq]
    simp
  · rw [← List.append_assoc, ← ending_eq]
    exact naming.head?_ending back

end Naming

/-! ## What is read where a statement stands -/

/-- Two names in front of what cannot go on with them are the same. -/
theorem eq_of_append_name {named named' rest rest' : List Char}
    (bindable : Name.isBindable named = true) (bindable' : Name.isBindable named' = true)
    (stops : rest.head?.any Name.isTail = false) (stops' : rest'.head?.any Name.isTail = false)
    (same : named ++ rest = named' ++ rest') : named = named' ∧ rest = rest' :=
  Text.eq_of_append_run (Name.isBindable_iff.mp bindable).2 stops
    (Name.isBindable_iff.mp bindable').2 stops' same

/-- A pattern that reads an export of one name reads its name, and is that of its form unless it
takes the word `enum` for a variable. -/
theorem Naming.reads_of_spells (naming : Naming) {form : Form} (names : form ≠ .list)
    {before : Option Char} {piece rest back : List Char} {captures : List (Capture Char)}
    (spells : form.pattern.Spells before piece rest captures)
    (same : displayOf (Statement.named naming).segments ++ back = piece ++ rest) :
    ∃ named tail, captures = [⟨1, named ++ tail, named.length⟩] ∧
      (form = naming.form ∧ named = naming.bound.text ∨
        form = .declared .binding ∧ naming.form = .declared .enumeration ∧
          named = "enum".toList) ∧ ∃ more, rest = more ++ back := by
  obtain ⟨gap, opening, named, closing, rfl, -, isGap, solid, opens, bindable, ends, closes, rfl⟩ :=
    (Form.spells_iff names).mp spells
  refine ⟨named, _, rfl, ?_⟩
  have behindGap : displayOf naming.opening ++ (naming.bound.text ++
      (displayOf naming.ending.segments ++ back)) =
        opening ++ (named ++ (closing ++ rest)) := by
    rw [displayOf_segments_append] at same
    simp only [List.append_assoc] at same
    exact eq_of_append_gap (isGap_display naming.gap) isGap (naming.head?_opening _) solid
      (List.append_cancel_left same)
  have stops := naming.head?_ending back
  obtain ⟨keywords, known, keyed⟩ := opens.exists_keyed names
    (head?_isSeparator_of_isBindable bindable _)
  rcases (naming.keyed _).compare keyed behindGap with
    ⟨more, between, rfl, -, later, core⟩ | ⟨more, between, split, -, later, core⟩
  · rcases Form.eq_or_enum naming.known known with ⟨rfl, form_eq⟩ | ⟨rfl, -, -⟩
    · cases later
      obtain ⟨rfl, behind⟩ := eq_of_append_name naming.bound.bindable bindable stops ends core
      rw [← form_eq] at closes
      exact ⟨.inl ⟨form_eq.symm, rfl⟩, naming.exists_behind_of_closes closes behind⟩
    · -- the statement would be of a variable named `enum`
      have name := later.eq_word_of_singleton (by decide) naming.bound.bindable stops core
      exact absurd name naming.ordinary.ne_enum
  · have own := naming.known
    rw [split] at own
    rcases Form.eq_or_enum known own with ⟨rfl, form_eq⟩ | ⟨rfl, isBinding, isEnum⟩
    · cases later
      obtain ⟨rfl, behind⟩ := eq_of_append_name naming.bound.bindable bindable stops ends core.symm
      rw [form_eq] at closes
      exact ⟨.inl ⟨form_eq, rfl⟩, naming.exists_behind_of_closes closes behind⟩
    · have name := later.eq_word_of_singleton (by decide) bindable ends core
      refine ⟨.inr ⟨isBinding, isEnum, name⟩, ?_⟩
      rw [isBinding] at closes
      obtain rfl : closing = [] := closes
      cases later with
      | @cons _ _ separator _ _ _ _ _ last =>
        cases last
        rw [name, List.append_assoc] at core
        refine ⟨separator ++ (naming.bound.text ++ displayOf naming.ending.segments), ?_⟩
        simpa using List.append_cancel_left core

/-- A name is read behind keywords, and no mark in its place is a name. -/
theorem Keyed.ne_of_mark {own keywords : List Keyword} {opening opening' named tail tail' : List Char}
    {mark : Char} (marked : Keyed own opening (mark :: tail)) (few : own.length ≤ 1)
    (outside : Name.isTail mark = false) (keyed : Keyed keywords opening' (named ++ tail'))
    (some : keywords ≠ []) (bindable : Name.isBindable named = true) :
    opening ++ mark :: tail ≠ opening' ++ (named ++ tail') := by
  have noName : mark :: tail ≠ named ++ tail' := by
    obtain ⟨⟨c, rest, rfl, head⟩, -⟩ := Name.isBindable_iff.mp bindable
    intro same
    rw [(List.cons.inj same).1, Name.isTail_of_isHead head] at outside
    cases outside
  have noWord : Text.isWord mark = false := by
    rw [Name.isTail, Bool.or_eq_false_iff] at outside
    exact outside.1
  intro same
  rcases marked.compare keyed same with ⟨more, between, -, -, later, core⟩ |
    ⟨more, between, rfl, -, later, core⟩
  · exact noName (later.eq_nil_of_mark noWord core.symm).2.symm
  · rw [List.length_append] at few
    have nonempty := List.length_pos_iff.mpr some
    obtain rfl : more = [] := List.length_eq_zero_iff.mp (by omega)
    cases later
    exact noName core.symm

/-- No pattern reads a name where a mark stands. -/
theorem not_spells_of_mark {form : Form} (names : form ≠ .list) {own : List Keyword}
    {opening gap tail piece rest : List Char} {mark : Char} {before : Option Char}
    {captures : List (Capture Char)} (marked : Keyed own opening (mark :: tail))
    (few : own.length ≤ 1) (outside : Name.isTail mark = false) (isGap : IsGap gap)
    (solid : (opening ++ mark :: tail).head?.any Text.isBlank = false)
    (same : "export".toList ++ (gap ++ (opening ++ mark :: tail)) = piece ++ rest) :
    ¬form.pattern.Spells before piece rest captures := by
  intro spells
  obtain ⟨gap', opening', named, closing, rfl, -, isGap', solid', opens, bindable, -, -, -⟩ :=
    (Form.spells_iff names).mp spells
  obtain ⟨keywords, known, keyed⟩ := opens.exists_keyed names
    (head?_isSeparator_of_isBindable bindable _)
  simp only [List.append_assoc] at same
  exact marked.ne_of_mark few outside keyed (Form.ne_nil_of_mem_keywords known) bindable
    (eq_of_append_gap isGap isGap' solid solid' (List.append_cancel_left same))

end ImportSupply.Export
