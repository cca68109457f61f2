import ImportSupply.Proofs.Export.StatementReading
import ImportSupply.Proofs.Pattern.Placing

/-!
# Export lists that are read

A specifier of an export list makes the entry of its exported name (`ofSpecifier_displayOf`), so the
text of a list makes the entries of its slots (`ofList_listText`). Where a list stands it is read as
a whole, with its word `type` and, if there is one, the word `from` behind it
(`Listing.exists_matchAt`); where another statement stands, no list is read.
-/

namespace ImportSupply.Export

open Pattern Literal

/-! ## Specifiers -/

/-- A name, layout, the word `as` between two spaces, layout and a name hold that word once. -/
theorem eq_of_append_as {own outer : Binding.Bindable} {pad pad' left right : List Char}
    (padded : ∀ c ∈ pad, Text.isBlank c = true) (padded' : ∀ c ∈ pad', Text.isBlank c = true)
    (same : left ++ (" as ".toList ++ right) =
      own.text ++ (pad ++ (" as ".toList ++ (pad' ++ outer.text)))) :
    right = pad' ++ outer.text := by
  have blank : Name.isTail ' ' = false := by decide
  have gap : ∀ c ∈ pad ++ [' '], Text.isBlank c = true :=
    List.forall_mem_append.mpr ⟨padded, by decide⟩
  have gap' : ∀ c ∈ ' ' :: pad', Text.isBlank c = true :=
    List.forall_mem_cons.mpr ⟨by decide, padded'⟩
  have whole : (left ++ [' ']) ++ ("as ".toList ++ right) =
      own.text ++ ((pad ++ [' ']) ++ ("as".toList ++ ((' ' :: pad') ++ outer.text))) := by
    simpa using same
  obtain ⟨more, front, behindOwn⟩ := Text.exists_append_of_getLast? whole
    (fun _ => own.isTail_of_mem) (by simp) (by rw [List.getLast?_concat]; exact blank)
  obtain ⟨more', rfl, behindGap⟩ := Text.exists_append_of_head? behindOwn gap rfl
  by_cases here : more' = []
  · subst here
    simpa using behindGap
  · -- a second such word would stand in the last name
    have edge : more'.getLast?.any Name.isTail = false := by
      have last : (left ++ [' ']).getLast? = more'.getLast? := by
        rw [front, ← List.append_assoc, List.getLast?_append_of_ne_nil _ here]
      rw [← last, List.getLast?_concat]
      exact blank
    obtain ⟨more'', -, behindAs⟩ := Text.exists_append_of_getLast? behindGap
      (by decide : ∀ c ∈ "as".toList, Name.isTail c = true) here edge
    obtain ⟨inner, -, inName⟩ := Text.exists_append_of_head? behindAs gap' rfl
    have space : ' ' ∈ outer.text := by simp [← inName]
    exact absurd space (outer.not_mem_of_isTail_eq_false (by decide))

section

variable (specifier : Binding.Specifier)

theorem exportedOf_untyped : exportedOf specifier.untyped = specifier.bound.text := by
  cases given : specifier.renamed with
  | none =>
    have uncut : Text.cutFirst " as ".toList specifier.own.text = none := by
      by_contra cut
      obtain ⟨sides, cut⟩ := Option.ne_none_iff_exists'.mp cut
      have space : ' ' ∈ specifier.own.text := by
        rw [Text.eq_append_of_cutFirst cut]
        simp
      exact specifier.own.not_mem_of_isTail_eq_false (by decide) space
    rw [specifier.untyped_eq_own given, exportedOf, uncut]
    simp [Binding.Specifier.bound, given]
  | some renamed =>
    have blank {layout : Layout} : ∀ c ∈ layout.display, Text.isBlank c = true := fun _ =>
      Layout.isBlank_of_mem_display
    have whole : specifier.untyped = specifier.own.text ++ renamed.before.display ++
        (" as ".toList ++ (renamed.after.display ++ renamed.outer.text)) := by
      rw [Binding.Specifier.untyped, specifier.displayOf_renamedSegments given, List.append_assoc]
    -- a list is cut at the first ` as `, wherever that is; what it leaves on the right is the outer
    -- name
    obtain ⟨sides, cut⟩ := Option.ne_none_iff_exists'.mp
      (Text.cutFirst_ne_none (by decide : " as ".toList ≠ []) (specifier.own.text ++
        renamed.before.display) (renamed.after.display ++ renamed.outer.text))
    have right := eq_of_append_as blank blank
      ((Text.eq_append_of_cutFirst cut).symm.trans (List.append_assoc _ _ _))
    rw [exportedOf, whole, cut]
    simp only [right, renamed.outer.trim_padStart blank]
    simp [Binding.Specifier.bound, given]

theorem untyped_core (listIsType : Bool) :
    untyped listIsType specifier.core =
      (specifier.typed.isSome || listIsType, specifier.untyped) := by
  cases typed : specifier.typed with
  | none =>
    rw [untyped, specifier.isPrefixOf?_type typed]
    simp [Binding.Specifier.core, Binding.Specifier.typeSegments, typed]
  | some layout =>
    have whole : "type ".toList ++ (layout.display ++ specifier.untyped) = specifier.core := by
      simp [Binding.Specifier.core, Binding.Specifier.typeSegments, typed]
    have last : specifier.untyped.getLast?.any Text.isBlank = false :=
      getLast?_isBlank_of_append specifier.getLast?_core
    have trimmed : Text.trim (layout.display ++ specifier.untyped) = specifier.untyped := by
      have padded := @Text.trim_padded layout.display specifier.untyped []
        (fun _ => Layout.isBlank_of_mem_display) (by simp)
        (by simp [Binding.Specifier.untyped, specifier.own.ne_nil])
        (by simpa using specifier.head?_untyped []) last
      simpa using padded
    rw [untyped, List.isPrefixOf?_eq_some_iff_append_eq.mpr whole]
    simp [trimmed]

/-- A specifier makes the entry of the name that it exports. -/
theorem ofSpecifier_displayOf (source : String) (listIsType types : Bool) :
    ofSpecifier source listIsType types (displayOf specifier.segments) =
      Listing.entryOf? source listIsType types (.named specifier) := by
  have core_ne : specifier.core ≠ [] := by
    simp [Binding.Specifier.core, Binding.Specifier.untyped, specifier.own.ne_nil]
  have isDefault : specifier.bound.text = "default".toList ↔ specifier.bound.name = "default" := by
    constructor
    · intro same
      rw [Binding.Bindable.name, same]
      rfl
    · intro same
      rw [← same, Binding.Bindable.name, String.toList_ofList]
  rw [ofSpecifier_eq, specifier.trim_displayOf]
  simp only [untyped_core, exportedOf_untyped, Listing.entryOf?, Bool.or_eq_true, beq_iff_eq,
    List.isEmpty_iff, core_ne, specifier.bound.ne_nil, isDefault, false_or, or_false]
  rfl

end

/-! ## Lists -/

theorem ofSpecifier_slot (source : String) (listIsType types : Bool) (slot : Binding.Slot) :
    ofSpecifier source listIsType types (displayOf slot.segments) =
      Listing.entryOf? source listIsType types slot := by
  cases slot with
  | vacant layout =>
    have trimmed : Text.trim layout.display = [] := by
      have blank : layout.display.dropWhile Text.isBlank = [] :=
        List.dropWhile_eq_nil_iff.mpr fun _ => Layout.isBlank_of_mem_display
      rw [Text.trim, Text.dropEnds, Text.dropStart, blank]
      rfl
    rw [Binding.Slot.segments, displayOf_layout, ofSpecifier_eq, trimmed]
    rfl
  | named specifier => exact ofSpecifier_displayOf specifier source listIsType types

/-- The text of a list makes the entries of its slots. -/
theorem ofList_listText (source : String) (listIsType types : Bool) (slots : List Binding.Slot) :
    ofList source listIsType types (Binding.listText slots) =
      slots.filterMap (Listing.entryOf? source listIsType types) := by
  by_cases empty : slots = []
  · subst empty
    rfl
  · have solid : ∀ part ∈ slots.map (fun slot => displayOf slot.segments), ',' ∉ part := by
      intro part listed member
      obtain ⟨slot, -, rfl⟩ := List.mem_map.mp listed
      rcases Binding.Slot.isBlank_or_isTail member with wrong | wrong
      · exact absurd wrong (by decide)
      · exact absurd wrong (by decide)
    rw [ofList, Binding.listText, List.splitOn_intercalate ',' solid (by simpa using empty),
      List.filterMap_map]
    exact List.filterMap_congr fun slot _ => ofSpecifier_slot source listIsType types slot

/-! ## The pattern of a list -/

/-- The pattern of a list up to its closing brace. -/
def listHead : Pattern Char :=
  all
    [wordEdge, text "export", gap, maybe (group 1 (all [text "type", gap])),
      bracketed '\x7b' '\x7d' 2]

/-- What says that a list comes from another module. -/
def listOrigin : Pattern Char :=
  all [blanks, text "from", wordEdge]

theorem matchAt_listExport (place : Place Char) :
    listExport.matchAt place = (seq listHead (maybe (group 3 listOrigin))).matchAt place :=
  rfl

section

variable {before : Option Char} {piece rest : List Char} {captures : List (Capture Char)}

theorem spells_maybeType :
    (maybe (group 1 (all [text "type", gap]))).Spells before piece rest captures ↔
      ∃ typed : Option Gap, piece = optionalWord "type" typed ∧
        (typed.isSome = true → rest.head?.any Text.isBlank = false) ∧
        captures = (typed.map fun _ => ⟨1, piece ++ rest, piece.length⟩).toList := by
  have passes := (passes_text "type").all_cons (passes_gap.all_cons passes_all_nil)
  constructor
  · rintro (⟨_, typed, rfl⟩ | ⟨rfl, rfl⟩)
    · obtain ⟨⟨_, _, rfl, rfl, gap, _, rfl, ⟨isGap, stops⟩, rfl⟩, rfl⟩ := (passes _ _ _ _).mp typed
      exact ⟨some ⟨gap, isGap⟩, by simp [optionalWord], fun _ => by simpa using stops, by simp⟩
    · exact ⟨none, rfl, by simp, rfl⟩
  · rintro ⟨typed, rfl, stops, rfl⟩
    cases typed with
    | none => exact .inr ⟨rfl, rfl⟩
    | some gap =>
      exact .inl ⟨[], (passes _ _ _ _).mpr ⟨⟨_, gap.text, rfl, rfl, gap.text, [], by simp,
        ⟨gap.isGap, by simpa using stops rfl⟩, rfl⟩, rfl⟩, rfl⟩

/-- What the pattern of a list passes up to the closing brace, and what it remembers. -/
theorem spells_listHead :
    listHead.Spells before piece rest captures ↔
      ∃ (gap : List Char) (typed : Option Gap) (list : List Char),
        before.any Text.isWord = false ∧ IsGap gap ∧ '\x7d' ∉ list ∧
        piece = "export".toList ++ (gap ++ (optionalWord "type" typed ++
          '\x7b' :: (list ++ ['\x7d']))) ∧
        captures = ⟨2, list ++ '\x7d' :: rest, list.length⟩ ::
          (typed.map fun _ => ⟨1, optionalWord "type" typed ++ '\x7b' :: (list ++ '\x7d' :: rest),
            (optionalWord "type" typed).length⟩).toList := by
  have inside : Text.isWord 'e' = true := by decide
  have solid (typed : Option Gap) (back : List Char) :
      (optionalWord "type" typed ++ '\x7b' :: back).head?.any Text.isBlank = false := by
    cases typed <;> rfl
  constructor
  · intro spells
    obtain ⟨_, _, _, _, edge, behindEdge, rfl, rfl⟩ := spells_all_cons.mp spells
    obtain ⟨outside, rfl, rfl⟩ := spells_wordEdge.mp edge
    obtain ⟨_, _, _, _, word, behindWord, rfl, rfl⟩ := spells_all_cons.mp behindEdge
    obtain ⟨rfl, rfl⟩ := spells_text.mp word
    obtain ⟨gap, _, _, _, blank, behindGap, rfl, rfl⟩ := spells_all_cons.mp behindWord
    obtain ⟨isGap, -, rfl⟩ := spells_gap.mp blank
    obtain ⟨_, _, _, _, isTyped, braces, rfl, rfl⟩ := spells_all_cons.mp behindGap
    obtain ⟨typed, rfl, -, rfl⟩ := spells_maybeType.mp isTyped
    obtain ⟨list, absent, rfl, rfl⟩ := spells_bracketed.mp braces
    refine ⟨gap, typed, list, ?_, isGap, absent, by simp, by simp⟩
    simpa [inside] using outside
  · rintro ⟨gap, typed, list, outside, isGap, absent, rfl, rfl⟩
    refine spells_all_cons.mpr ⟨[], _, [], _, spells_wordEdge.mpr ⟨?_, rfl, rfl⟩,
      spells_all_cons.mpr ⟨_, _, [], _, spells_text.mpr ⟨rfl, rfl⟩,
        spells_all_cons.mpr ⟨gap, _, [], _, spells_gap.mpr ⟨isGap, ?_, rfl⟩,
          spells_all_cons.mpr ⟨_, _, _, _, spells_maybeType.mpr ⟨typed, rfl, fun _ => rfl, rfl⟩,
            spells_bracketed.mpr ⟨list, absent, rfl, rfl⟩, rfl, rfl⟩, rfl, rfl⟩, rfl, rfl⟩, rfl, ?_⟩
    · simp [outside, inside]
    · rw [List.append_assoc]
      exact solid typed _
    · simp

theorem passes_listOrigin :
    Passes listOrigin fun piece rest =>
      ∃ pad, (∀ c ∈ pad, Text.isBlank c = true) ∧ piece = pad ++ "from".toList ∧
        rest.head?.any Text.isWord = false := by
  have inside : Text.isWord 'm' = true := by decide
  have last (front : List Char) : (front ++ "from".toList).getLast? = some 'm' := by
    rw [List.getLast?_append_of_ne_nil _ (by decide)]
    rfl
  intro before piece rest captures
  constructor
  · intro spells
    obtain ⟨pad, _, _, _, blank, behindPad, rfl, rfl⟩ := spells_all_cons.mp spells
    obtain ⟨padded, -, rfl⟩ := spells_blanks.mp blank
    obtain ⟨_, _, _, _, word, edge, rfl, rfl⟩ := spells_all_cons.mp behindPad
    obtain ⟨rfl, rfl⟩ := spells_text.mp word
    obtain ⟨differs, rfl, rfl⟩ := spells_wordEdge.mp edge
    refine ⟨⟨pad, padded, by simp, ?_⟩, rfl⟩
    rw [← lastOf_append, lastOf, last] at differs
    simpa [inside] using differs
  · rintro ⟨⟨pad, padded, rfl, stops⟩, rfl⟩
    refine spells_all_cons.mpr ⟨pad, "from".toList, [], [], spells_blanks.mpr ⟨padded, rfl, rfl⟩,
      spells_all_cons.mpr ⟨"from".toList, [], [], [], spells_text.mpr ⟨rfl, rfl⟩,
        spells_wordEdge.mpr ⟨?_, rfl, rfl⟩, by simp, rfl⟩, rfl, rfl⟩
    rw [← lastOf_append, lastOf, last]
    simp [inside, stops]

end

/-! ## Where a list stands -/

/-- Layout as a gap. -/
def gapOf (spacing : Spacing) : Gap :=
  ⟨spacing.display, isGap_display spacing⟩

theorem keyed_optionalWord (typed : Option Gap) {mark : Char} (solid : isSeparator mark = false)
    (tail : List Char) :
    Keyed (typed.map fun _ => Keyword.typeAlias).toList (optionalWord "type" typed)
      (mark :: tail) := by
  cases typed with
  | none => exact .nil
  | some gap =>
    have word : Keyed [.typeAlias] ("type".toList ++ (gap.text ++ [])) (mark :: tail) :=
      Keyed.nil.cons_gap .typeAlias gap.isGap solid
    rwa [List.append_nil] at word

/-- The characters that what follows a list must not start with. -/
def goesOn (c : Char) : Bool :=
  Text.isBlank c || c == 'f'

theorem displayOf_origin (origin : Origin) :
    displayOf (Listing.originSegments (some origin)) =
      origin.before.display ++ ("from".toList ++
        (origin.after.display ++ origin.source.display)) := by
  simp [Listing.originSegments]

/-- Behind the word `from` stands layout or a quote. -/
theorem Origin.head?_isWord (origin : Origin) (back : List Char) :
    (origin.after.display ++ origin.source.display ++ back).head?.any Text.isWord = false := by
  have quote : Text.isWord origin.source.quote.char = false := by
    cases origin.source.quote <;> decide
  have shown : origin.source.display ++ back =
      origin.source.quote.char :: (origin.source.shownBody ++ [origin.source.quote.char] ++ back) :=
    rfl
  rw [List.append_assoc, shown]
  cases display_eq : origin.after.display with
  | nil => exact quote
  | cons c rest =>
    have member : c ∈ origin.after.display := by simp [display_eq]
    exact Text.isWord_eq_false_of_isBlank (Layout.isBlank_of_mem_display member)

namespace Listing

variable (listing : Listing)

theorem displayOf_segments_append (back : List Char) :
    displayOf (Statement.listed listing).segments ++ back =
      "export".toList ++ (listing.gap.display ++ (optionalWord "type" (listing.typed.map gapOf) ++
        '\x7b' :: (Binding.listText listing.slots ++ '\x7d' ::
          (displayOf (originSegments listing.origin) ++ back)))) := by
  have typed : displayOf (typeSegments listing.typed) =
      optionalWord "type" (listing.typed.map gapOf) := by
    cases listing.typed with
    | none => rfl
    | some spacing => simp [typeSegments, optionalWord, gapOf, Keyword.segment, Keyword.word]
  simp [Statement.segments, Statement.gap, Statement.body, body, typed,
    Binding.displayOf_listSegments]

theorem brace_not_mem : '\x7d' ∉ Binding.listText listing.slots := fun member =>
  absurd (Binding.isListed_of_mem_listText member) (by decide)

theorem head?_list (tail : List Char) :
    (optionalWord "type" (listing.typed.map gapOf) ++ '\x7b' :: tail).head?.any Text.isBlank =
      false := by
  cases listing.typed <;> rfl

/-- A list is found where it stands. -/
theorem exists_matchAt {before : Option Char} (outside : before.any Text.isWord = false)
    (index : Nat) (back : List Char) :
    ∃ found, listExport.matchAt
      ⟨before, index, displayOf (Statement.listed listing).segments ++ back⟩ = some found := by
  obtain ⟨captures, spells⟩ : ∃ captures, listHead.Spells before ("export".toList ++
      (listing.gap.display ++ (optionalWord "type" (listing.typed.map gapOf) ++
        '\x7b' :: (Binding.listText listing.slots ++ ['\x7d']))))
      (displayOf (originSegments listing.origin) ++ back) captures :=
    ⟨_, spells_listHead.mpr ⟨listing.gap.display, listing.typed.map gapOf, _, outside,
      isGap_display listing.gap, listing.brace_not_mem, rfl, rfl⟩⟩
  rw [matchAt_listExport, displayOf_segments_append]
  -- the part behind the list may be missing
  exact exists_matchAt_of_spells (by simp)
    (spells_seq.mpr ⟨_, [], captures, [], spells, .inr ⟨rfl, rfl⟩, rfl, rfl⟩)

/-- What the pattern of a list reads where a list stands. -/
structure Reads (found : Match Char) : Prop where
  length : found.length ≤ (displayOf (Statement.listed listing).segments).length
  typed : (found.piece? 1).isSome = listing.typed.isSome
  list : found.piece? 2 = some (Binding.listText listing.slots)
  origin : (found.piece? 3).isSome = listing.origin.isSome

/-- The word `from` is read behind a list if and only if the list comes from another module. -/
theorem origin_cases {before : Option Char} {trailing : Layout} {back final rest : List Char}
    {more : List (Capture Char)} (free : back.head?.any goesOn = false)
    (same : displayOf (originSegments listing.origin) ++ (trailing.display ++ back) = final ++ rest)
    (taken : (group 3 listOrigin).Spells before final rest more ∨
      final = [] ∧ more = [] ∧ ∀ piece' rest' captures', rest = piece' ++ rest' →
        ¬(group 3 listOrigin).Spells before piece' rest' captures') :
    final.length ≤ (displayOf (originSegments listing.origin)).length ∧
      (listing.origin.isSome = true → more = [⟨3, final ++ rest, final.length⟩]) ∧
      (listing.origin.isSome = false → more = []) := by
  have blank {layout : Layout} : ∀ c ∈ layout.display, Text.isBlank c = true := fun _ =>
    Layout.isBlank_of_mem_display
  cases origin_eq : listing.origin with
  | none =>
    rw [origin_eq] at same
    rcases taken with ⟨_, spells, rfl⟩ | ⟨rfl, rfl, -⟩
    · -- what follows the layout would start with the word `from`
      obtain ⟨⟨pad, padded, rfl, -⟩, -⟩ := (passes_listOrigin _ _ _ _).mp spells
      have solid : back.head?.any Text.isBlank = false := by
        cases back with
        | nil => rfl
        | cons c back => simp_all [goesOn]
      rw [List.append_assoc] at same
      obtain ⟨-, rfl⟩ := Text.eq_of_append_run blank solid padded rfl
        (by simpa [originSegments] using same)
      cases free
    · exact ⟨Nat.zero_le _, by simp, fun _ => rfl⟩
  | some origin =>
    rw [origin_eq, displayOf_origin] at same
    rcases taken with ⟨_, spells, rfl⟩ | ⟨rfl, -, missing⟩
    · obtain ⟨⟨pad, padded, rfl, -⟩, rfl⟩ := (passes_listOrigin _ _ _ _).mp spells
      simp only [List.append_assoc] at same
      obtain ⟨rfl, -⟩ := Text.eq_of_append_run blank rfl padded rfl same
      refine ⟨?_, fun _ => rfl, by simp⟩
      rw [displayOf_origin]
      simp
    · have spells := (passes_listOrigin before (origin.before.display ++ "from".toList)
        (origin.after.display ++ origin.source.display ++ (trailing.display ++ back)) []).mpr
          ⟨⟨_, blank, rfl, origin.head?_isWord _⟩, rfl⟩
      exact absurd ⟨_, spells, rfl⟩ (missing _ _ _ (by simpa using same.symm))

theorem reads_of_matchAt {before : Option Char} {index : Nat} {trailing : Layout}
    {back : List Char} (free : back.head?.any goesOn = false) {found : Match Char}
    (starts : listExport.matchAt ⟨before, index,
      displayOf (Statement.listed listing).segments ++ (trailing.display ++ back)⟩ = some found) :
    listing.Reads found := by
  rw [matchAt_listExport] at starts
  obtain ⟨_, final, rest, _, more, split, spells, rfl, taken⟩ :=
    exists_spells_of_matchAt_maybe starts
  obtain ⟨gap, typed, list, -, isGap, absent, rfl, rfl⟩ := spells_listHead.mp spells
  have cancelled := split
  rw [displayOf_segments_append] at cancelled
  simp only [List.append_assoc, List.cons_append, List.nil_append] at cancelled
  have solid : (optionalWord "type" typed ++ '\x7b' :: (list ++ '\x7d' ::
      (final ++ rest))).head?.any Text.isBlank = false := by
    cases typed <;> rfl
  have lists := eq_of_append_gap (isGap_display listing.gap) isGap (listing.head?_list _) solid
    (List.append_cancel_left cancelled)
  obtain ⟨typed_eq, rfl, behind⟩ := eq_of_append_list listing.brace_not_mem absent lists
  -- the module is found exactly if the list has one, so the groups are those of the list
  obtain ⟨within, given, missing⟩ := listing.origin_cases free behind taken
  have total := congrArg List.length split
  have behindTotal := congrArg List.length behind
  simp only [List.length_append] at total behindTotal
  rw [Option.isSome_map] at typed_eq
  cases isGiven : listing.origin.isSome with
  | false =>
    obtain rfl := missing isGiven
    refine ⟨?_, ?_, ?_, ?_⟩
    · simp only [List.length_append]
      omega
    · cases typed <;> simp [typed_eq, Match.piece?]
    · simp [Match.piece?, Capture.piece]
    · cases typed <;> simp [isGiven, Match.piece?]
  | true =>
    obtain rfl := given isGiven
    refine ⟨?_, ?_, ?_, ?_⟩
    · simp only [List.length_append]
      omega
    · cases typed <;> simp [typed_eq, Match.piece?]
    · simp [Match.piece?, Capture.piece]
    · simp [isGiven, Match.piece?]

end Listing

/-! ## Where other statements stand -/

section

variable {before : Option Char} {index : Nat} {back : List Char}

theorem matchAt_eq_none {pattern : Pattern Char} {place : Place Char}
    (absent : ∀ piece rest captures, place.rest = piece ++ rest →
      ¬pattern.Spells place.before piece rest captures) : pattern.matchAt place = none := by
  by_contra some
  obtain ⟨found, starts⟩ := Option.ne_none_iff_exists'.mp some
  obtain ⟨piece, rest, captures, split, spells, -⟩ := exists_spells_of_matchAt starts
  exact absent piece rest captures split spells

/-- No list is read where no list starts. -/
theorem matchAt_listExport_eq_none {text : List Char}
    (absent : ∀ (gap : List Char) (typed : Option Gap) (list rest : List Char), IsGap gap →
      text ≠ "export".toList ++ (gap ++ (optionalWord "type" typed ++
        '\x7b' :: (list ++ '\x7d' :: rest)))) :
    listExport.matchAt ⟨before, index, text⟩ = none := by
  rw [matchAt_listExport]
  refine matchAt_eq_none fun piece rest captures split spells => ?_
  obtain ⟨_, final, _, _, head, -, rfl, -⟩ := spells_seq.mp spells
  obtain ⟨gap, typed, list, -, isGap, -, rfl, -⟩ := spells_listHead.mp head
  exact absent gap typed list (final ++ rest) isGap (by simpa using split)

theorem Naming.matchAt_listExport (naming : Naming) :
    listExport.matchAt ⟨before, index, displayOf (Statement.named naming).segments ++ back⟩ =
      none := by
  refine matchAt_listExport_eq_none fun gap typed list rest isGap same => ?_
  have solid : (optionalWord "type" typed ++ '\x7b' :: (list ++ '\x7d' :: rest)).head?.any
      Text.isBlank = false := by
    cases typed <;> rfl
  rw [naming.displayOf_segments_append] at same
  have cores := eq_of_append_gap (isGap_display naming.gap) isGap (naming.head?_opening _) solid
    (List.append_cancel_left same)
  exact (keyed_optionalWord typed (by decide) _).ne_of_mark (by cases typed <;> simp) (by decide)
    (naming.keyed _) (by simp) naming.bound.bindable cores.symm

theorem displayOf_everything_append (gap : Spacing) (origin : Origin) (back : List Char) :
    displayOf (Statement.everything gap origin).segments ++ back =
      "export".toList ++ (gap.display ++ '*' ::
        (displayOf (Listing.originSegments (some origin)) ++ back)) := by
  simp [Statement.segments, Statement.gap, Statement.body]

theorem matchAt_listExport_everything (gap : Spacing) (origin : Origin) :
    listExport.matchAt
      ⟨before, index, displayOf (Statement.everything gap origin).segments ++ back⟩ = none := by
  refine matchAt_listExport_eq_none fun gap' typed list rest isGap same => ?_
  have solid : (optionalWord "type" typed ++ '\x7b' :: (list ++ '\x7d' :: rest)).head?.any
      Text.isBlank = false := by
    cases typed <;> rfl
  rw [displayOf_everything_append] at same
  have cores := eq_of_append_gap (isGap_display gap) isGap rfl solid (List.append_cancel_left same)
  cases typed <;> cases cores

theorem Listing.matchAt_pattern (listing : Listing) {form : Form} (names : form ≠ .list) :
    form.pattern.matchAt ⟨before, index, displayOf (Statement.listed listing).segments ++ back⟩ =
      none := by
  refine matchAt_eq_none fun piece rest captures split => ?_
  rw [listing.displayOf_segments_append] at split
  exact not_spells_of_mark names (keyed_optionalWord _ (by decide) _)
    (by cases listing.typed <;> simp) (by decide) (isGap_display listing.gap)
    (listing.head?_list _) split

theorem matchAt_pattern_everything (gap : Spacing) (origin : Origin) {form : Form}
    (names : form ≠ .list) :
    form.pattern.matchAt
      ⟨before, index, displayOf (Statement.everything gap origin).segments ++ back⟩ = none := by
  refine matchAt_eq_none fun piece rest captures split => ?_
  rw [displayOf_everything_append] at split
  exact not_spells_of_mark names (.nil : Keyed [] [] _) (by decide) (by decide) (isGap_display gap)
    rfl split

end

end ImportSupply.Export
