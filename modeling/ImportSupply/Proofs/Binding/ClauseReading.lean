import ImportSupply.Binding.Imported
import ImportSupply.Proofs.Binding.ImportSyntax
import ImportSupply.Proofs.Text.Cutting

/-!
# Reading clauses and lists

What the clause of an import and the list of a re-export show binds exactly their names
(`Clause.ofClause_displayOf`, `ofList_listText`). A list is split at its commas and each specifier
is trimmed; the word `type` is taken off and the rest is cut at the last `as` that stands between
spaces, which is the specifier's own one even if a name is `as` (`cutLast_as`).
-/

namespace ImportSupply.Binding

open Literal Pattern

/-! ## Names -/

namespace Bindable

variable (bound : Bindable)

theorem isBlank_eq_false_of_mem {c : Char} (member : c ∈ bound.text) : Text.isBlank c = false :=
  Name.isBlank_eq_false_of_isTail (bound.isTail_of_mem member)

theorem not_mem_of_isTail_eq_false {c : Char} (outside : Name.isTail c = false) :
    c ∉ bound.text := by
  intro member
  rw [bound.isTail_of_mem member] at outside
  cases outside

theorem head?_isBlank (rest : List Char) :
    (bound.text ++ rest).head?.any Text.isBlank = false :=
  head?_isBlank_of_isBindable bound.bindable rest

theorem getLast?_isBlank (front : List Char) :
    (front ++ bound.text).getLast?.any Text.isBlank = false :=
  Text.getLast?_any_append bound.ne_nil fun _ => bound.isBlank_eq_false_of_mem

theorem trim_padStart {pad : List Char} (blank : ∀ c ∈ pad, Text.isBlank c = true) :
    Text.trim (pad ++ bound.text) = bound.text := by
  have padded := @Text.trim_padded pad bound.text [] blank (by simp) bound.ne_nil
    (by simpa using bound.head?_isBlank []) (by simpa using bound.getLast?_isBlank [])
  simpa using padded

theorem bindable?_text : bindable? bound.text = some bound.name := by
  rw [bindable?, if_pos bound.bindable, name]

end Bindable

/-! ## One specifier -/

/-- Behind the word `as` between two spaces, layout and a name hold no other one. -/
theorem cutLast_as {pad : List Char} (padded : ∀ c ∈ pad, Text.isBlank c = true)
    (outer : Bindable) (left : List Char) :
    Text.cutLast " as ".toList (left ++ " as ".toList ++ (pad ++ outer.text)) =
      some (left, pad ++ outer.text) := by
  have last : Text.cutLast (' ' :: "as ".toList) ("as ".toList ++ (pad ++ outer.text)) = none := by
    by_contra cut
    obtain ⟨sides, cut⟩ := Option.ne_none_iff_exists'.mp cut
    have gap : ∀ c ∈ ' ' :: pad, Text.isBlank c = true := by simpa using ⟨by decide, padded⟩
    have same : (sides.1 ++ [' ']) ++ ("as ".toList ++ sides.2) =
        "as".toList ++ ((' ' :: pad) ++ outer.text) := by
      simpa using (Text.eq_append_of_cutLast cut).symm
    -- the space in front of such a word stands in the layout, so the word starts the name
    have isWord : ∀ c ∈ "as".toList, Name.isTail c = true := by decide
    obtain ⟨more, -, behindAs⟩ := Text.exists_append_of_getLast? same isWord (by simp)
      (by rw [List.getLast?_concat]; decide)
    obtain ⟨more, -, inName⟩ := Text.exists_append_of_head? behindAs gap rfl
    have space : ' ' ∈ outer.text := by simp [← inName]
    exact outer.not_mem_of_isTail_eq_false (by decide) space
  exact Text.cutLast_append last left

namespace Specifier

variable (specifier : Specifier)

/-- What a specifier shows behind its word `type`. -/
def untyped : List Char :=
  specifier.own.text ++ displayOf specifier.renamedSegments

/-- What a specifier shows without the layout around it. -/
def core : List Char :=
  displayOf specifier.typeSegments ++ specifier.untyped

theorem displayOf_segments :
    displayOf specifier.segments =
      specifier.leading.display ++ specifier.core ++ specifier.trailing.display := by
  simp [segments, core, untyped]

theorem displayOf_renamedSegments {renamed : Renaming} (isSome : specifier.renamed = some renamed) :
    displayOf specifier.renamedSegments = renamed.before.display ++
      (" as ".toList ++ (renamed.after.display ++ renamed.outer.text)) := by
  simp [renamedSegments, isSome, Renaming.segments]

theorem untyped_eq_own (isNone : specifier.renamed = none) :
    specifier.untyped = specifier.own.text := by
  simp [untyped, renamedSegments, isNone]

theorem getLast?_core : specifier.core.getLast?.any Text.isBlank = false := by
  cases given : specifier.renamed with
  | none =>
    rw [core, specifier.untyped_eq_own given]
    exact specifier.own.getLast?_isBlank _
  | some renamed =>
    rw [core, untyped, specifier.displayOf_renamedSegments given]
    simp only [← List.append_assoc]
    exact renamed.outer.getLast?_isBlank _

theorem head?_untyped (rest : List Char) :
    (specifier.untyped ++ rest).head?.any Text.isBlank = false := by
  rw [untyped, List.append_assoc]
  exact specifier.own.head?_isBlank _

theorem trim_displayOf : Text.trim (displayOf specifier.segments) = specifier.core := by
  have nonempty : specifier.core ≠ [] := by simp [core, untyped, specifier.own.ne_nil]
  have first : specifier.core.head?.any Text.isBlank = false := by
    rw [core, typeSegments]
    split
    · simpa using specifier.head?_untyped []
    · rfl
  rw [specifier.displayOf_segments]
  exact Text.trim_padded (fun _ => Layout.isBlank_of_mem_display)
    (fun _ => Layout.isBlank_of_mem_display) nonempty first specifier.getLast?_core

/-- Without a word `type` of its own, a specifier does not start with one. -/
theorem isPrefixOf?_type (isNone : specifier.typed = none) :
    "type ".toList.isPrefixOf? specifier.core = none := by
  by_contra starts
  obtain ⟨after, starts⟩ := Option.ne_none_iff_exists'.mp starts
  rw [List.isPrefixOf?_eq_some_iff_append_eq] at starts
  have same : "type".toList ++ ' ' :: after =
      specifier.own.text ++ displayOf specifier.renamedSegments := by
    simpa [core, typeSegments, isNone, untyped] using starts
  cases given : specifier.renamed with
  | none =>
    have space : ' ' ∈ specifier.own.text := by
      simp only [renamedSegments, given, displayOf_nil, List.append_nil] at same
      simp [← same]
    exact specifier.own.not_mem_of_isTail_eq_false (by decide) space
  | some renamed =>
    have stops : (displayOf specifier.renamedSegments).head?.any Name.isTail = false := by
      rw [specifier.displayOf_renamedSegments given]
      exact Name.head?_isTail_of_padded (fun _ => Layout.isBlank_of_mem_display) (by decide) _
    have words := Text.eq_of_append_run (by decide : ∀ c ∈ "type".toList, Name.isTail c = true) rfl
      (fun _ => specifier.own.isTail_of_mem) stops same
    exact specifier.clear isNone (by simp [given]) words.1.symm

/-- A specifier binds its name. -/
theorem ofSpecifier_displayOf :
    ofSpecifier (displayOf specifier.segments) = some specifier.bound.name := by
  have untype : ((("type ".toList.isPrefixOf? specifier.core).map Text.trimStart).getD
      specifier.core) = specifier.untyped := by
    cases typed : specifier.typed with
    | none =>
      rw [specifier.isPrefixOf?_type typed]
      simp [core, typeSegments, typed]
    | some layout =>
      have whole : "type ".toList ++ (layout.display ++ specifier.untyped) = specifier.core := by
        simp [core, typeSegments, typed]
      have starts := List.isPrefixOf?_eq_some_iff_append_eq.mpr whole
      rw [starts, Option.map_some, Option.getD_some, Text.trimStart, Text.dropStart]
      exact Text.dropWhile_append_run (fun _ => Layout.isBlank_of_mem_display)
        (by simpa using specifier.head?_untyped [])
  rw [ofSpecifier, specifier.trim_displayOf]
  simp only [untype]
  cases given : specifier.renamed with
  | none =>
    -- a name has no blanks, so it cannot hold the blanks of ` as `
    have rare : specifier.own.text.count ' ' < " as ".toList.count ' ' := by
      rw [List.count_eq_zero.mpr (specifier.own.not_mem_of_isTail_eq_false (by decide))]
      decide
    rw [specifier.untyped_eq_own given, Text.cutLast_eq_none_of_count rare]
    simp [bound, given, Bindable.bindable?_text]
  | some renamed =>
    have whole : specifier.untyped = specifier.own.text ++ renamed.before.display ++
        " as ".toList ++ (renamed.after.display ++ renamed.outer.text) := by
      simp [untyped, specifier.displayOf_renamedSegments given]
    have trimmed : Text.trim (renamed.after.display ++ renamed.outer.text) =
        renamed.outer.text :=
      renamed.outer.trim_padStart fun _ => Layout.isBlank_of_mem_display
    rw [whole, cutLast_as (fun _ => Layout.isBlank_of_mem_display)]
    simp [bound, given, trimmed, Bindable.bindable?_text]

end Specifier

/-! ## Lists in braces -/

/-- A list in braces shows blanks and names. -/
theorem Specifier.isBlank_or_isTail {specifier : Specifier} {c : Char}
    (member : c ∈ displayOf specifier.segments) :
    Text.isBlank c = true ∨ Name.isTail c = true := by
  have words : ∀ c ∈ "type ".toList ++ " as ".toList,
      Text.isBlank c = true ∨ Name.isTail c = true := by
    decide
  have layout {layout : Layout} (member : c ∈ layout.display) :
      Text.isBlank c = true ∨ Name.isTail c = true :=
    .inl (Layout.isBlank_of_mem_display member)
  have named {bound : Bindable} (member : c ∈ bound.text) :
      Text.isBlank c = true ∨ Name.isTail c = true :=
    .inr (bound.isTail_of_mem member)
  rw [specifier.displayOf_segments, core, untyped] at member
  simp only [List.mem_append] at member
  rcases member with (member | member | member | member) | member
  · exact layout member
  · rw [typeSegments] at member
    split at member
    · cases member
    · simp only [displayOf_cons, displayOf_layout, List.mem_append] at member
      rcases member with member | member
      · exact words c (List.mem_append_left _ member)
      · exact layout member
  · exact named member
  · cases given : specifier.renamed with
    | none => simp [renamedSegments, given] at member
    | some renamed =>
      rw [specifier.displayOf_renamedSegments given] at member
      simp only [List.mem_append] at member
      rcases member with member | member | member | member
      · exact layout member
      · exact words c (List.mem_append_right _ member)
      · exact layout member
      · exact named member
  · exact layout member

theorem Slot.isBlank_or_isTail {slot : Slot} {c : Char} (member : c ∈ displayOf slot.segments) :
    Text.isBlank c = true ∨ Name.isTail c = true := by
  cases slot with
  | vacant layout =>
    rw [segments, displayOf_layout] at member
    exact .inl (Layout.isBlank_of_mem_display member)
  | named specifier => exact Specifier.isBlank_or_isTail member

theorem Slot.ofSpecifier_displayOf (slot : Slot) :
    ofSpecifier (displayOf slot.segments) = slot.names := by
  cases slot with
  | vacant layout =>
    have trimmed : Text.trim layout.display = [] := by
      have blank : layout.display.dropWhile Text.isBlank = [] :=
        List.dropWhile_eq_nil_iff.mpr fun _ => Layout.isBlank_of_mem_display
      rw [Text.trim, Text.dropEnds, Text.dropStart, blank]
      rfl
    rw [segments, displayOf_layout, ofSpecifier, trimmed]
    rfl
  | named specifier => exact specifier.ofSpecifier_displayOf

/-- What the slots of a list show, with commas between them. -/
def listText (slots : List Slot) : List Char :=
  [','].intercalate (slots.map fun slot => displayOf slot.segments)

theorem displayOf_listSegments (slots : List Slot) :
    displayOf (listSegments slots) = listText slots := by
  rw [listSegments, displayOf_intercalate, List.map_map]
  rfl

/-- The characters of a list in braces: blanks, commas and what names are made of. -/
def isListed (c : Char) : Bool :=
  Text.isBlank c || Name.isTail c || c == ','

theorem isListed_of_mem_listText {slots : List Slot} {c : Char} (member : c ∈ listText slots) :
    isListed c = true := by
  refine Text.forall_mem_intercalate (by decide) (fun part listed c member => ?_) c member
  obtain ⟨slot, -, rfl⟩ := List.mem_map.mp listed
  rcases Slot.isBlank_or_isTail member with blank | tail
  · simp [isListed, blank]
  · simp [isListed, tail]

/-- A list in braces binds the names of its slots. -/
theorem ofList_listText (slots : List Slot) :
    ofList (listText slots) = slots.filterMap Slot.names := by
  cases slots with
  | nil => decide
  | cons slot slots =>
    have solid : ∀ part ∈ (slot :: slots).map (fun slot => displayOf slot.segments),
        ',' ∉ part := by
      intro part listed member
      obtain ⟨slot, -, rfl⟩ := List.mem_map.mp listed
      rcases Slot.isBlank_or_isTail member with wrong | wrong <;> exact absurd wrong (by decide)
    rw [ofList, listText, List.splitOn_intercalate ',' solid (by simp), List.filterMap_map]
    exact List.filterMap_congr fun slot _ => slot.ofSpecifier_displayOf

/-! ## Clauses -/

theorem Target.displayOf_list (slots : List Slot) (trailing : Layout) :
    displayOf (Target.list slots trailing).segments =
      '{' :: (listText slots ++ '}' :: trailing.display) := by
  simp [Target.segments, displayOf_listSegments]

theorem Target.displayOf_star (before : Layout) (after : Spacing) (bound : Bindable)
    (trailing : Spacing) :
    displayOf (Target.star before after bound trailing).segments =
      '*' :: (before.display ++ ("as".toList ++ (after.display ++
        (bound.text ++ trailing.display)))) := by
  simp [Target.segments]

/-- The brace that opens a list, or a star. -/
def isMark (c : Char) : Bool :=
  c == '{' || c == '*'

theorem isMark_iff {c : Char} : isMark c = true ↔ c = '{' ∨ c = '*' := by
  rw [isMark, Bool.or_eq_true, beq_iff_eq, beq_iff_eq]

theorem isMark_eq_false_of_isListed {c : Char} (listed : isListed c = true) : isMark c = false := by
  by_contra marked
  rcases isMark_iff.mp (Bool.not_eq_false _ ▸ marked) with rfl | rfl <;>
    exact absurd listed (by decide)

theorem isListed_of_isBlank {c : Char} (blank : Text.isBlank c = true) : isListed c = true := by
  simp [isListed, blank]

theorem isListed_of_isTail {c : Char} (tail : Name.isTail c = true) : isListed c = true := by
  simp [isListed, tail]

theorem not_mem_of_isMark {text : List Char} (unmarked : ∀ c ∈ text, isMark c = false)
    {mark : Char} (marks : isMark mark = true) : mark ∉ text := by
  intro member
  rw [unmarked mark member] at marks
  cases marks

theorem bracedOfClause_eq_nil {clause : List Char} (absent : '{' ∉ clause) :
    bracedOfClause clause = [] := by
  rw [bracedOfClause, Text.cutFirst_singleton_eq_none absent]

theorem bracedOfClause_list {front : List Char} (unmarked : ∀ c ∈ front, isMark c = false)
    (slots : List Slot) (trailing : Layout) :
    bracedOfClause (front ++ displayOf (Target.list slots trailing).segments) =
      slots.filterMap Slot.names := by
  have behind : '}' ∉ trailing.display := fun member =>
    absurd (Layout.isBlank_of_mem_display member) (by decide)
  rw [Target.displayOf_list, bracedOfClause,
    Text.cutFirst_singleton_append (not_mem_of_isMark unmarked (by decide))]
  simp only
  rw [Text.cutLast_singleton_append behind]
  exact ofList_listText slots

theorem skips_namespaceClause {front : List Char} (absent : '*' ∉ front) :
    namespaceClause.Skips front := by
  refine skips_of_starts rfl fun c member => ?_
  have other : c ≠ '*' := fun same => absent (same ▸ member)
  simpa [namespaceClause, starAs, all, Pattern.text, exactly, starts, nullable] using other

theorem namespaceOfClause_eq_none {clause : List Char} (absent : '*' ∉ clause) :
    namespaceOfClause clause = none := by
  rw [namespaceOfClause, firstMatch?, (skips_namespaceClause absent).allMatches_eq_nil]
  rfl

/-- The words of a namespace are passed up to its name. -/
theorem run_starAs {β : Type} {pad space rest : List Char}
    (padded : ∀ c ∈ pad, Text.isBlank c = true) (spaced : IsGap space)
    (stops : rest.head?.any Text.isBlank = false) (before : Option Char) (index : Nat)
    (captures : List (Capture Char)) (next : Place Char → List (Capture Char) → Option β) :
    starAs.run ⟨before, index, '*' :: (pad ++ ("as".toList ++ (space ++ rest)))⟩ captures next =
      next ⟨lastOf (some 's') space, index + 1 + pad.length + 2 + space.length, rest⟩ captures := by
  have parts : starAs = seq (text "*") (seq blanks (seq (text "as") gap)) := rfl
  have star : '*' :: (pad ++ ("as".toList ++ (space ++ rest))) =
      "*".toList ++ (pad ++ ("as".toList ++ (space ++ rest))) := rfl
  rw [parts, star, run_seq, run_text_append, run_seq, blanks, run_many_append padded rfl, run_seq,
    run_text_append, gap, run_several_append spaced.1 spaced.2 stops]
  rfl

theorem namespaceOfClause_star {front : List Char} (unmarked : ∀ c ∈ front, isMark c = false)
    (before : Layout) (after : Spacing) (bound : Bindable) (trailing : Spacing) :
    namespaceOfClause (front ++ displayOf (Target.star before after bound trailing).segments) =
      some bound.name := by
  have spaced : IsGap after.display :=
    ⟨after.display_ne_nil, fun _ => Spacing.isBlank_of_mem_display⟩
  have stops : trailing.display.head?.any Name.isTail = false :=
    Name.head?_isTail_of_blank fun _ => Spacing.isBlank_of_mem_display
  have skips : namespaceClause.Skips front := skips_namespaceClause
    (not_mem_of_isMark unmarked (by decide))
  have starts : namespaceClause.matchAt ⟨lastOf none front, 0 + front.length,
      displayOf (Target.star before after bound trailing).segments⟩ =
        some ⟨0 + front.length, 1 + before.display.length + 2 + after.display.length +
          bound.text.length, [⟨1, bound.text ++ trailing.display, bound.text.length⟩]⟩ := by
    rw [Target.displayOf_star, matchAt, namespaceClause, run_seq,
      run_starAs (fun _ => Layout.isBlank_of_mem_display) spaced (bound.head?_isBlank _), run,
      run_name_append bound.bindable stops]
    simp only [Option.some.injEq, Match.mk.injEq, List.cons.injEq, Capture.mk.injEq, and_true,
      true_and]
    omega
  have first := head?_matchesFrom starts (by simp [Target.displayOf_star])
  rw [namespaceOfClause, firstMatch?, allMatches, skips.matchesFrom_append, first]
  simp [Match.piece?, Capture.piece, Bindable.name]

/-- Behind a text without marks, a list binds its names and a namespace its own. -/
theorem Target.ofClause_append {front : List Char} (unmarked : ∀ c ∈ front, isMark c = false)
    (target : Target) :
    bracedOfClause (front ++ displayOf target.segments) ++
      (namespaceOfClause (front ++ displayOf target.segments)).toList = target.names := by
  cases target with
  | list slots trailing =>
    -- neither reader of a clause sees the mark that the other one looks for
    have noStar : '*' ∉ front ++ displayOf (list slots trailing).segments := by
      rw [displayOf_list]
      simp only [List.mem_append, List.mem_cons, not_or]
      refine ⟨not_mem_of_isMark unmarked (by decide), by decide, ?_, by decide, ?_⟩
      · exact fun member => absurd (isListed_of_mem_listText member) (by decide)
      · exact fun member => absurd (Layout.isBlank_of_mem_display member) (by decide)
    rw [bracedOfClause_list unmarked, namespaceOfClause_eq_none noStar]
    exact List.append_nil _
  | star before after bound trailing =>
    have noBrace : '{' ∉ front ++ displayOf (star before after bound trailing).segments := by
      rw [displayOf_star]
      simp only [List.mem_append, List.mem_cons, not_or]
      refine ⟨not_mem_of_isMark unmarked (by decide), by decide, ?_, by decide, ?_, ?_, ?_⟩
      · exact fun member => absurd (Layout.isBlank_of_mem_display member) (by decide)
      · exact fun member => absurd (Spacing.isBlank_of_mem_display member) (by decide)
      · exact bound.not_mem_of_isTail_eq_false (by decide)
      · exact fun member => absurd (Spacing.isBlank_of_mem_display member) (by decide)
    rw [bracedOfClause_eq_nil noBrace, namespaceOfClause_star unmarked]
    rfl

/-- Before its first mark a clause has its default name, if it has one. -/
theorem defaultOfClause_append {front rest : List Char}
    (unmarked : ∀ c ∈ front, isMark c = false)
    (marked : rest.head?.any (!isMark ·) = false) :
    defaultOfClause (front ++ rest) =
      bindable? (Text.trim (Text.dropEnd (· == ',') (Text.trim front))) := by
  have head : (front ++ rest).takeWhile (!isMark ·) = front :=
    Text.takeWhile_append_run (by simpa using unmarked) marked
  show bindable? (Text.trim (Text.dropEnd (· == ',') (Text.trim
    ((front ++ rest).takeWhile (!isMark ·))))) = _
  rw [head]

/-- What a clause shows in front of its brace or star. -/
def Clause.front : Clause → List Char
  | default _ bound trailing => bound.text ++ trailing.display
  | bare _ _ => []
  | both _ bound before after _ => bound.text ++ (before.display ++ ',' :: after.display)

/-- What a clause shows from its brace or star on. -/
def Clause.back : Clause → List Char
  | default _ _ _ => []
  | bare _ target => displayOf target.segments
  | both _ _ _ _ target => displayOf target.segments

/-- The name in front of a brace or star. -/
def Clause.defaultName : Clause → Option String
  | default _ bound _ => some bound.name
  | bare _ _ => none
  | both _ bound _ _ _ => some bound.name

theorem Clause.displayOf_segments (clause : Clause) :
    displayOf clause.segments = clause.front ++ clause.back := by
  cases clause <;> simp [segments, front, back]

theorem Clause.isListed_of_mem_front {clause : Clause} {c : Char} (member : c ∈ clause.front) :
    isListed c = true := by
  cases clause with
  | default leading bound trailing =>
    rcases List.mem_append.mp member with member | member
    · exact isListed_of_isTail (bound.isTail_of_mem member)
    · exact isListed_of_isBlank (Spacing.isBlank_of_mem_display member)
  | bare leading target => cases member
  | both leading bound before after target =>
    simp only [front, List.mem_append, List.mem_cons] at member
    rcases member with member | member | rfl | member
    · exact isListed_of_isTail (bound.isTail_of_mem member)
    · exact isListed_of_isBlank (Layout.isBlank_of_mem_display member)
    · decide
    · exact isListed_of_isBlank (Layout.isBlank_of_mem_display member)

theorem Target.head?_isMark (target : Target) :
    (displayOf target.segments).head?.any (!isMark ·) = false := by
  cases target with
  | list slots trailing =>
    rw [displayOf_list]
    rfl
  | star before after bound trailing =>
    rw [displayOf_star]
    rfl

theorem Clause.head?_isMark_back (clause : Clause) :
    clause.back.head?.any (!isMark ·) = false := by
  cases clause with
  | default => rfl
  | bare leading target => exact target.head?_isMark
  | both leading bound before after target => exact target.head?_isMark

theorem Bindable.trim_append (bound : Bindable) {pad : List Char}
    (padded : ∀ c ∈ pad, Text.isBlank c = true) : Text.trim (bound.text ++ pad) = bound.text :=
  @Text.trim_padded [] bound.text pad (by simp) padded bound.ne_nil
    (by simpa using bound.head?_isBlank []) (by simpa using bound.getLast?_isBlank [])

theorem Bindable.getLast?_comma (bound : Bindable) {pad : List Char}
    (padded : ∀ c ∈ pad, Text.isBlank c = true) :
    (bound.text ++ pad).getLast?.any (· == ',') = false := by
  rw [Option.any_eq_false]
  intro c last
  have member := List.mem_of_getLast? last
  rw [beq_eq_false_iff_ne]
  rintro rfl
  rcases List.mem_append.mp member with member | member
  · exact bound.not_mem_of_isTail_eq_false (by decide) member
  · exact absurd (padded ',' member) (by decide)

theorem Clause.defaultOfClause_displayOf (clause : Clause) :
    defaultOfClause (displayOf clause.segments) = clause.defaultName := by
  rw [clause.displayOf_segments, defaultOfClause_append
    (fun c member => isMark_eq_false_of_isListed (isListed_of_mem_front member))
    clause.head?_isMark_back]
  cases clause with
  | default leading bound trailing =>
    have last := @Bindable.getLast?_comma bound [] (by simp)
    have kept := @Text.dropEnd_append (· == ',') bound.text [] (by rwa [List.append_nil] at last)
      (by simp)
    have trimmed := @Bindable.trim_append bound [] (by simp)
    rw [List.append_nil] at kept trimmed
    rw [front, bound.trim_append fun _ => Spacing.isBlank_of_mem_display, kept, trimmed,
      bound.bindable?_text]
    rfl
  | bare leading target => rfl
  | both leading bound before after target =>
    have blankBefore : ∀ c ∈ before.display, Text.isBlank c = true :=
      fun _ => Layout.isBlank_of_mem_display
    -- the comma ends the trimmed text, so the layout in front of it is trimmed only once it is gone
    have trimmed : Text.trim (bound.text ++ (before.display ++ ',' :: after.display)) =
        bound.text ++ before.display ++ [','] := by
      have padded := @Text.trim_padded [] (bound.text ++ before.display ++ [',']) after.display
        (by simp) (fun _ => Layout.isBlank_of_mem_display) (by simp)
        (by rw [List.append_assoc]; exact bound.head?_isBlank _) (by rw [List.getLast?_concat]; rfl)
      simpa using padded
    rw [front, trimmed, Text.dropEnd_append (bound.getLast?_comma blankBefore) (by simp),
      bound.trim_append blankBefore, bound.bindable?_text]
    rfl

/-- The clause of an import binds its names. -/
theorem Clause.ofClause_displayOf (clause : Clause) :
    ofClause (displayOf clause.segments) = clause.names := by
  have unmarked : ∀ c ∈ clause.front, isMark c = false := fun c member =>
    isMark_eq_false_of_isListed (isListed_of_mem_front member)
  have noBrace : '{' ∉ clause.front := not_mem_of_isMark unmarked (by decide)
  have noStar : '*' ∉ clause.front := not_mem_of_isMark unmarked (by decide)
  rw [ofClause, clause.defaultOfClause_displayOf, clause.displayOf_segments]
  cases clause with
  | default leading bound trailing =>
    rw [back, List.append_nil, bracedOfClause_eq_nil noBrace, namespaceOfClause_eq_none noStar]
    rfl
  | bare leading target =>
    rw [back, target.ofClause_append unmarked, defaultName, Option.toList_none, List.append_nil]
    rfl
  | both leading bound before after target =>
    rw [back, target.ofClause_append unmarked]
    rfl

end ImportSupply.Binding
