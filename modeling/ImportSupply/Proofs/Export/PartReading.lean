import ImportSupply.Proofs.Export.Parts

/-!
# Exports that are parts

An export that is found where an exporting part starts is that part: a type export has the name of
its heading (`Part.mem_declared_of_type`), and a list export its list (`Part.exists_list`). Both are
read off the words behind `export`, none of which starts with another one, so there is one way to
read them.
-/

namespace ImportSupply.Export

open Pattern Binding

/-! ## What an exporting part starts with -/

/-- The words that a heading can start with, its modifiers included. -/
def startWords : List String :=
  modifierWords ++ ["function", "let", "var", "class", "type", "interface", "enum"]

/-- None of these words starts with another one. -/
theorem eq_of_mem_startWords {word other : String} (own : word ∈ startWords)
    (own' : other ∈ startWords) {rest rest' : List Char}
    (same : word.toList ++ rest = other.toList ++ rest') : word = other ∧ rest = rest' :=
  Text.eq_of_append_word (by decide) own own' same

theorem Heading.mem_startWords (heading : Heading) : heading.word ∈ startWords := by
  have all : ∀ word ∈ heading.kind.words, word ∈ startWords := by
    cases heading.kind <;> decide
  exact all _ heading.own

theorem Modifier.mem_startWords (modifier : Modifier) : modifier.word ∈ startWords :=
  List.mem_append_left _ modifier.own

theorem head?_isBlank_of_mem_startWords {word : String} (own : word ∈ startWords)
    (rest : List Char) : (word.toList ++ rest).head?.any Text.isBlank = false := by
  have first : ∀ word ∈ startWords, word.toList ≠ [] ∧
      word.toList.head?.any Text.isBlank = false := by
    decide
  obtain ⟨nonempty, solid⟩ := first word own
  rwa [List.head?_append_of_ne_nil _ nonempty]

/-- A gap and what follows it are told apart. -/
theorem eq_of_append_gap {gap gap' rest rest' : List Char} (isGap : IsGap gap)
    (isGap' : IsGap gap') (stops : rest.head?.any Text.isBlank = false)
    (stops' : rest'.head?.any Text.isBlank = false) (same : gap ++ rest = gap' ++ rest') :
    rest = rest' :=
  (Text.eq_of_append_run isGap.2 stops isGap'.2 stops' same).2

/-- What stands in a declaration behind `export`. -/
def announced (modifiers : List Modifier) (heading : Heading) : List Char :=
  modifiers.flatMap Modifier.text ++ heading.text

section

variable {modifiers : List Modifier} {heading : Heading} {back : List Char}

theorem announced_nil :
    announced [] heading ++ back = heading.word.toList ++
      (heading.separator ++ (heading.name.text ++ (heading.closing ++ back))) := by
  simp [announced, Heading.text]

theorem announced_cons (modifier : Modifier) :
    announced (modifier :: modifiers) heading ++ back =
      modifier.word.toList ++ (modifier.gap.text ++ (announced modifiers heading ++ back)) := by
  simp [announced, Modifier.text]

theorem head?_announced :
    (announced modifiers heading ++ back).head?.any Text.isBlank = false := by
  cases modifiers with
  | nil =>
    rw [announced_nil]
    exact head?_isBlank_of_mem_startWords heading.mem_startWords _
  | cons modifier modifiers =>
    rw [announced_cons]
    exact head?_isBlank_of_mem_startWords modifier.mem_startWords _

/-- Only the heading of a type starts with the word `type`. -/
theorem exists_of_announced_eq_type {rest : List Char}
    (same : announced modifiers heading ++ back = "type".toList ++ rest) :
    IsGap heading.separator ∧
      rest = heading.separator ++ (heading.name.text ++ (heading.closing ++ back)) := by
  have typeWord : "type" ∈ startWords := by decide
  cases modifiers with
  | nil =>
    rw [announced_nil] at same
    obtain ⟨word, behind⟩ := eq_of_mem_startWords heading.mem_startWords typeWord same
    refine ⟨?_, behind.symm⟩
    have kind : heading.kind = .typeAlias := by
      have own := heading.own
      rw [word] at own
      revert own
      cases heading.kind <;> decide
    have separates := heading.separates
    rwa [kind] at separates
  | cons modifier modifiers =>
    rw [announced_cons] at same
    obtain ⟨word, -⟩ := eq_of_mem_startWords modifier.mem_startWords typeWord same
    have own := modifier.own
    rw [word] at own
    exact absurd own (by decide)

/-- A type that is read behind `export` is the part's own. -/
theorem name_eq_of_announced_eq_type {separator named rest : List Char} (isGap : IsGap separator)
    (bindable : Name.isBindable named = true) (stops : rest.head?.any Name.isTail = false)
    (ends : (heading.closing ++ back).head?.any Name.isTail = false)
    (same : announced modifiers heading ++ back =
      "type".toList ++ (separator ++ (named ++ rest))) : heading.name.text = named := by
  obtain ⟨own, behind⟩ := exists_of_announced_eq_type same
  have names := eq_of_append_gap isGap own (head?_isBlank_of_isBindable bindable rest)
    (head?_isBlank_of_isBindable heading.name.bindable _) behind
  exact (Text.eq_of_append_run (Name.isBindable_iff.mp bindable).2 stops
    (Name.isBindable_iff.mp heading.name.bindable).2 ends names).1.symm

/-- So is one behind the word `declare`. -/
theorem name_eq_of_announced_eq_declare {tail separator named rest : List Char}
    (declares : tail = [] ∨ ∃ gap, IsGap gap ∧ tail = "declare".toList ++ gap)
    (isGap : IsGap separator) (bindable : Name.isBindable named = true)
    (stops : rest.head?.any Name.isTail = false)
    (ends : (heading.closing ++ back).head?.any Name.isTail = false)
    (same : announced modifiers heading ++ back =
      tail ++ ("type".toList ++ (separator ++ (named ++ rest)))) : heading.name.text = named := by
  rcases declares with rfl | ⟨gap, gap_isGap, rfl⟩
  · exact name_eq_of_announced_eq_type isGap bindable stops ends same
  · have declareWord : "declare" ∈ startWords := by decide
    rw [List.append_assoc] at same
    cases modifiers with
    | nil =>
      -- no heading starts with `declare`
      rw [announced_nil] at same
      obtain ⟨word, -⟩ := eq_of_mem_startWords heading.mem_startWords declareWord same
      have keyword := heading.own
      rw [word] at keyword
      exfalso
      revert keyword
      cases heading.kind <;> decide
    | cons modifier modifiers =>
      rw [announced_cons] at same
      obtain ⟨-, left⟩ := eq_of_mem_startWords modifier.mem_startWords declareWord same
      have later := eq_of_append_gap modifier.gap.isGap gap_isGap head?_announced rfl left
      exact name_eq_of_announced_eq_type isGap bindable stops ends later

end

theorem brace_ne_name {named : List Char} (bindable : Name.isBindable named = true)
    (rest rest' : List Char) : '\x7b' :: rest ≠ named ++ rest' := by
  obtain ⟨⟨c, tail, rfl, head⟩, -⟩ := Name.isBindable_iff.mp bindable
  intro same
  obtain ⟨rfl, -⟩ := List.cons.inj same
  exact absurd head (by decide)

/-- Where a type has its keyword or its name, a list has a brace. -/
theorem type_ne_list {tail separator named rest back : List Char} {typed : Option Gap}
    (declares : tail = [] ∨ ∃ gap, IsGap gap ∧ tail = "declare".toList ++ gap)
    (isGap : IsGap separator) (bindable : Name.isBindable named = true) :
    optionalWord "type" typed ++ '\x7b' :: back ≠
      tail ++ ("type".toList ++ (separator ++ (named ++ rest))) := by
  intro same
  rcases declares with rfl | ⟨gap, -, rfl⟩
  · cases typed with
    | none => cases same
    | some gap =>
      rw [optionalWord, List.append_assoc] at same
      have brace := eq_of_append_gap gap.isGap isGap rfl (head?_isBlank_of_isBindable bindable rest)
        (List.append_cancel_left same)
      exact brace_ne_name bindable _ _ brace
  · cases typed with
    | none => cases same
    | some gap => cases same

/-- Nor is the heading of a declaration read as a list. -/
theorem announced_ne_list {modifiers : List Modifier} {heading : Heading} {back rest : List Char}
    {typed : Option Gap} :
    announced modifiers heading ++ back ≠ optionalWord "type" typed ++ '\x7b' :: rest := by
  intro same
  -- A list starts with its brace or with the word `type`; a heading starts with neither, or goes on
  -- with a name.
  cases typed with
  | none =>
    have first {word : String} (own : word ∈ startWords) (rest' : List Char) :
        word.toList ++ rest' ≠ '\x7b' :: rest := by
      intro brace
      have heads : ∀ word ∈ startWords, word.toList ≠ [] ∧ word.toList.head? ≠ some '\x7b' := by
        decide
      obtain ⟨nonempty, other⟩ := heads word own
      rw [← List.head?_append_of_ne_nil _ nonempty, brace] at other
      exact other rfl
    cases modifiers with
    | nil =>
      rw [announced_nil] at same
      exact first heading.mem_startWords _ same
    | cons modifier modifiers =>
      rw [announced_cons] at same
      exact first modifier.mem_startWords _ same
  | some gap =>
    rw [optionalWord, List.append_assoc] at same
    obtain ⟨own, behind⟩ := exists_of_announced_eq_type same
    have brace := eq_of_append_gap gap.isGap own rfl
      (head?_isBlank_of_isBindable heading.name.bindable _) behind
    exact brace_ne_name heading.name.bindable _ _ brace

namespace Part

theorem text_exported_append (gap : Gap) (modifiers : List Modifier) (heading : Heading)
    (back : List Char) :
    (declaration (some gap) modifiers heading).text ++ back =
      "export".toList ++ (gap.text ++ (announced modifiers heading ++ back)) := by
  simp [text_declaration, lead, optionalWord, announced]

theorem text_list_append (gap : Gap) (typed : Option Gap) (slots : List Slot) (back : List Char) :
    (list gap typed slots).text ++ back =
      "export".toList ++ (gap.text ++ (optionalWord "type" typed ++ '\x7b' ::
        ([','].intercalate (slots.map Slot.text) ++ '\x7d' :: back))) := by
  simp [text_list]

theorem head?_list (typed : Option Gap) (rest : List Char) :
    (optionalWord "type" typed ++ '\x7b' :: rest).head?.any Text.isBlank = false := by
  cases typed <;> exact rfl

/-- What an exported type names, its part declares. -/
theorem mem_declared_of_type {part : Part} {front back : List Char}
    (exports : part.isExport = true) (whole : part.isWhole front back = true)
    {lead separator named rest : List Char} (isGap : IsGap separator)
    (bindable : Name.isBindable named = true) (stops : rest.head?.any Name.isTail = false)
    (starts : Starts lead ("type".toList ++ (separator ++ (named ++ rest))))
    (same : part.text ++ back = lead ++ ("type".toList ++ (separator ++ (named ++ rest)))) :
    String.ofList named ∈ part.declared := by
  obtain ⟨gap, tail, gap_isGap, solid, isTail, rfl⟩ := starts
  have declares : tail = [] ∨ ∃ gap, IsGap gap ∧ tail = "declare".toList ++ gap := by
    rcases isTail with rfl | ⟨gap', isGap', -, rfl⟩
    · exact .inl rfl
    · exact .inr ⟨gap', isGap', rfl⟩
  rw [List.append_assoc, List.append_assoc] at same
  -- only an exported declaration can be read so: the text of a list goes on with a brace
  cases part with
  | code _ => cases exports
  | declaration exported modifiers heading =>
    cases exported with
    | none => cases exports
    | some own =>
      simp only [isWhole, Bool.and_eq_true, Bool.not_eq_true'] at whole
      obtain ⟨⟨-, ends⟩, -⟩ := whole
      rw [text_exported_append] at same
      have behind := eq_of_append_gap own.isGap gap_isGap head?_announced solid
        (List.append_cancel_left same)
      have name := name_eq_of_announced_eq_declare declares isGap bindable stops ends behind
      rw [declared, Identifier.name, name]
      exact List.mem_singleton.mpr rfl
  | list own typed slots =>
    rw [text_list_append] at same
    have behind := eq_of_append_gap own.isGap gap_isGap (head?_list typed _) solid
      (List.append_cancel_left same)
    exact absurd behind (type_ne_list declares isGap bindable)

end Part

/-! ## Lists -/

theorem Specifier.isBlank_or_isTail {specifier : Specifier} {c : Char}
    (member : c ∈ specifier.text) : Text.isBlank c = true ∨ Name.isTail c = true := by
  have ofGap {gap : Gap} (own : c ∈ gap.text) := gap.isGap.2 c own
  have ofName {name : Identifier} (own : c ∈ name.text) :=
    (Name.isBindable_iff.mp name.bindable).2 c own
  have ofWord : ∀ c ∈ "type".toList ++ "as".toList, Name.isTail c = true := by decide
  have padded := specifier.padded c
  have ofType (own : c ∈ optionalWord "type" specifier.typed) :
      Text.isBlank c = true ∨ Name.isTail c = true := by
    cases typed : specifier.typed with
    | none => simp [typed, optionalWord] at own
    | some gap =>
      rw [typed, optionalWord, List.mem_append] at own
      rcases own with own | own
      · exact .inr (ofWord c (List.mem_append_left _ own))
      · exact .inl (ofGap own)
  rw [text, core] at member
  simp only [List.mem_append] at member padded
  rcases member with (own | own | own | own) | own
  · exact .inl (padded (.inl own))
  · exact ofType own
  · exact .inr (ofName own)
  · split at own
    next => cases own
    next before after outer _ =>
      simp only [List.mem_append] at own
      rcases own with own | own | own | own
      · exact .inl (ofGap own)
      · exact .inr (ofWord c (List.mem_append_right _ own))
      · exact .inl (ofGap own)
      · exact .inr (ofName own)
  · exact .inl (padded (.inr own))

theorem Slot.not_mem_text (slot : Slot) {mark : Char} (solid : Text.isBlank mark = false)
    (outside : Name.isTail mark = false) : mark ∉ slot.text := by
  intro member
  cases slot with
  | blank blanks padded => simp [padded mark member] at solid
  | named specifier =>
    rcases Specifier.isBlank_or_isTail member with blank | tail
    · simp [blank] at solid
    · simp [tail] at outside

theorem brace_not_mem_intercalate (slots : List Slot) :
    '\x7d' ∉ [','].intercalate (slots.map Slot.text) := by
  intro member
  have all := @Text.forall_mem_intercalate (· != '\x7d') [','] (by decide) (slots.map Slot.text) (by
    intro text own c inside
    obtain ⟨slot, -, rfl⟩ := List.mem_map.mp own
    rw [bne_iff_ne]
    rintro rfl
    exact slot.not_mem_text (by decide) (by decide) inside)
  simpa using all '\x7d' member

/-- Two lists that start at one place are the same, up to what stands behind them. -/
theorem eq_of_append_list {typed given : Option Gap} {body list back rest : List Char}
    (inside : '\x7d' ∉ body) (inside' : '\x7d' ∉ list)
    (same : optionalWord "type" typed ++ '\x7b' :: (body ++ '\x7d' :: back) =
      optionalWord "type" given ++ '\x7b' :: (list ++ '\x7d' :: rest)) :
    typed.isSome = given.isSome ∧ list = body ∧ back = rest := by
  have opened : typed.isSome = given.isSome ∧
      body ++ '\x7d' :: back = list ++ '\x7d' :: rest := by
    cases typed with
    | none =>
      cases given with
      | none => exact ⟨rfl, (List.cons.inj same).2⟩
      | some gap => cases same
    | some gap =>
      cases given with
      | none => cases same
      | some gap' =>
        rw [optionalWord, optionalWord, List.append_assoc, List.append_assoc] at same
        have behind := eq_of_append_gap gap.isGap gap'.isGap rfl rfl (List.append_cancel_left same)
        exact ⟨rfl, (List.cons.inj behind).2⟩
  -- the first closing brace ends either list
  obtain rfl := Text.eq_of_append_cons_eq inside inside' opened.2
  exact ⟨opened.1, rfl, (List.cons.inj (List.append_cancel_left opened.2)).2⟩

/-- An export list that is found is a part's own. -/
theorem Part.exists_list {part : Part} {back gap typed list rest : List Char}
    (exports : part.isExport = true) (isGap : IsGap gap)
    (isTyped : typed = [] ∨ ∃ gap', IsGap gap' ∧ typed = "type".toList ++ gap')
    (inside : '\x7d' ∉ list)
    (same : part.text ++ back =
      "export".toList ++ (gap ++ (typed ++ '\x7b' :: (list ++ '\x7d' :: rest)))) :
    ∃ slots : List Slot, part.specifiers = slots.filterMap Slot.specifier? ∧
      list = [','].intercalate (slots.map Slot.text) := by
  obtain ⟨given, rfl⟩ : ∃ given, typed = optionalWord "type" given := by
    rcases isTyped with rfl | ⟨gap', isGap', rfl⟩
    · exact ⟨none, rfl⟩
    · exact ⟨some ⟨gap', isGap'⟩, rfl⟩
  cases part with
  | code _ => cases exports
  | declaration exported modifiers heading =>
    cases exported with
    | none => cases exports
    | some own =>
      rw [text_exported_append] at same
      have behind := eq_of_append_gap own.isGap isGap head?_announced (head?_list given _)
        (List.append_cancel_left same)
      exact absurd behind announced_ne_list
  | list own typed slots =>
    rw [text_list_append] at same
    have behind := eq_of_append_gap own.isGap isGap (head?_list typed _) (head?_list given _)
      (List.append_cancel_left same)
    obtain ⟨-, text, -⟩ := eq_of_append_list (brace_not_mem_intercalate slots) inside behind
    exact ⟨slots, rfl, text⟩

/-- The entries of a list are those of its specifiers. -/
theorem exists_specifier_of_mem_ofList {source : String} {listIsType types : Bool}
    {slots : List Slot} {entry : Entry}
    (member : entry ∈ ofList source listIsType types ([','].intercalate (slots.map Slot.text))) :
    ∃ specifier ∈ slots.filterMap Slot.specifier?,
      ofSpecifier source listIsType types specifier.text = some entry := by
  have nothing {blanks : List Char} (padded : ∀ c ∈ blanks, Text.isBlank c = true) :
      ofSpecifier source listIsType types blanks = none := by
    have trimmed : Text.trim blanks = [] := by
      simp [Text.trim, Text.dropEnds, Text.dropStart, Text.dropEnd,
        List.dropWhile_eq_nil_iff.mpr padded]
    simp [ofSpecifier_eq, trimmed]
  rw [ofList] at member
  -- the text of an empty list is one blank part, which makes no entry
  by_cases empty : slots = []
  · subst empty
    simp [nothing] at member
  · rw [List.splitOn_intercalate ',' (by
        intro text own
        obtain ⟨slot, -, rfl⟩ := List.mem_map.mp own
        exact slot.not_mem_text (by decide) (by decide)) (by simpa using empty)] at member
    obtain ⟨_, own, found⟩ := List.mem_filterMap.mp member
    obtain ⟨slot, inList, rfl⟩ := List.mem_map.mp own
    cases slot with
    | blank blanks padded =>
      rw [Slot.text, nothing padded] at found
      cases found
    | named specifier => exact ⟨specifier, List.mem_filterMap.mpr ⟨_, inList, rfl⟩, found⟩

/-! ## Specifiers -/

namespace Specifier

theorem exists_front (specifier : Specifier) :
    ∃ front, specifier.core = front ++ specifier.exported.text ∧
      front.getLast?.all Text.isBlank = true := by
  have behind (front : List Char) (gap : Gap) :
      (front ++ gap.text).getLast?.all Text.isBlank = true := by
    rw [List.getLast?_append_of_ne_nil _ gap.isGap.1, List.getLast?_eq_some_getLast gap.isGap.1]
    exact gap.isGap.2 _ (List.getLast_mem gap.isGap.1)
  cases renamed : specifier.renamed with
  | none =>
    refine ⟨optionalWord "type" specifier.typed, by simp [core, exported, outer?, renamed], ?_⟩
    cases specifier.typed with
    | none => rfl
    | some gap => exact behind "type".toList gap
  | some names =>
    obtain ⟨before, after, outer⟩ := names
    exact ⟨optionalWord "type" specifier.typed ++ specifier.name.text ++ before.text ++
      "as".toList ++ after.text, by simp [core, exported, outer?, renamed], behind _ after⟩

/-- The exported name stands at the end of the specifier. -/
theorem endOf_exported (specifier : Specifier) :
    EndOf specifier.exported.text (Text.trim specifier.text) := by
  obtain ⟨front, split, blank⟩ := specifier.exists_front
  have nonempty := Kind.ne_nil_of_isBindable specifier.exported.bindable
  have first : specifier.core.head?.any Text.isBlank = false := by
    rw [core]
    cases specifier.typed with
    | none => exact head?_isBlank_of_isBindable specifier.name.bindable _
    | some gap => rfl
  have last : specifier.core.getLast?.any Text.isBlank = false := by
    rw [split, List.getLast?_append_of_ne_nil _ nonempty, List.getLast?_eq_some_getLast nonempty]
    exact Name.isBlank_eq_false_of_isTail
      ((Name.isBindable_iff.mp specifier.exported.bindable).2 _ (List.getLast_mem nonempty))
  have padded := specifier.padded
  rw [List.forall_mem_append] at padded
  have trimmed := Text.trim_padded padded.1 padded.2 (by simp [split, nonempty]) first last
  rw [text, trimmed]
  exact ⟨front, split, blank⟩

/-- An entry whose name holds no blank has the exported name. -/
theorem localName_of_ofSpecifier {specifier : Specifier} {source : String}
    {listIsType types : Bool} {entry : Entry}
    (found : ofSpecifier source listIsType types specifier.text = some entry)
    (solid : ∀ c ∈ entry.localName.toList, Text.isBlank c = false) :
    entry.localName = specifier.exported.name ∧ entry.localName ≠ "default" := by
  obtain ⟨ends, other⟩ := endOf_ofSpecifier found
  have visible : ∀ c ∈ specifier.exported.text, Text.isBlank c = false := fun c member =>
    Name.isBlank_eq_false_of_isTail
      ((Name.isBindable_iff.mp specifier.exported.bindable).2 c member)
  refine ⟨?_, other⟩
  rw [Identifier.name, ← ends.unique specifier.endOf_exported solid visible, String.ofList_toList]

end Specifier

end ImportSupply.Export
