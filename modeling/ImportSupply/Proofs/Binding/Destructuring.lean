import ImportSupply.Proofs.Binding.ClauseReading
import ImportSupply.Proofs.Binding.Settled

/-!
# Destructuring declarations

A destructuring declaration is found behind a text in which every bracket that is opened is closed:
an earlier match that reached over its keyword would have to end in its own bracket
(`Destructures.exists_mem_allMatches`). What is found reads as the names that the parts of the
pattern declare (`Destructured.ofDestructuring_bodyText`).
-/

namespace ImportSupply.Binding

open Literal Pattern

/-! ## What the pattern passes -/

/-- The group that a pattern in brackets is remembered under. -/
def Bracket.number : Bracket → Nat
  | curly => 1
  | square => 2

/-- A destructuring declaration up to its equals sign. -/
def Destructures (bracket : Bracket) (body text : List Char) : Prop :=
  bracket.closing ∉ body ∧ ∃ word ∈ Kind.binding.words, ∃ between pad,
    (∀ c ∈ between, Text.isBlank c = true) ∧ (∀ c ∈ pad, Text.isBlank c = true) ∧
      text = word.toList ++ (between ++ bracket.opening :: (body ++ bracket.closing ::
        (pad ++ ['='])))

theorem spells_brackets {before : Option Char} {piece rest : List Char}
    {captures : List (Capture Char)} :
    (either (bracketed '{' '}' 1) (bracketed '[' ']' 2)).Spells before piece rest captures ↔
      ∃ bracket : Bracket, ∃ body, bracket.closing ∉ body ∧
        piece = bracket.opening :: (body ++ [bracket.closing]) ∧
        captures = [⟨bracket.number, body ++ bracket.closing :: rest, body.length⟩] := by
  simp only [Spells, spells_bracketed]
  constructor
  · rintro (⟨body, own⟩ | ⟨body, own⟩)
    · exact ⟨.curly, body, own⟩
    · exact ⟨.square, body, own⟩
  · rintro ⟨bracket, body, own⟩
    cases bracket with
    | curly => exact .inl ⟨body, own⟩
    | square => exact .inr ⟨body, own⟩

theorem Bracket.isBlank_opening (bracket : Bracket) : Text.isBlank bracket.opening = false := by
  cases bracket <;> decide

theorem Destructures.head?_isWord {bracket : Bracket} {body text : List Char}
    (destructures : Destructures bracket body text) (rest : List Char) :
    (text ++ rest).head?.any Text.isWord = true := by
  obtain ⟨-, word, known, between, pad, -, -, rfl⟩ := destructures
  obtain ⟨c, more, spelled⟩ := List.exists_cons_of_ne_nil (Kind.ne_nil_of_mem_words known)
  have inside := Kind.isWord_of_mem_words known c (by simp [spelled])
  simp [spelled, inside]

theorem destructuringDeclaration_eq :
    destructuringDeclaration = seq wordEdge (seq variableWord (seq blanks
      (seq (either (bracketed '{' '}' 1) (bracketed '[' ']' 2)) (seq blanks (text "="))))) :=
  rfl

theorem ofDestructuringMatch_bracket (bracket : Bracket) (body after : List Char)
    (index length : Nat) :
    ofDestructuringMatch ⟨index, length, [⟨bracket.number, body ++ after, body.length⟩]⟩ =
      ofDestructuring body := by
  have piece (number : Nat) : Capture.piece ⟨number, body ++ after, body.length⟩ = body :=
    List.take_left
  cases bracket <;> simp [ofDestructuringMatch, Match.piece?, Bracket.number, piece]

/-- What the pattern passes is a destructuring declaration, and says what is in the brackets. -/
theorem exists_destructures_of_spells {before : Option Char} {piece rest : List Char}
    {captures : List (Capture Char)}
    (spells : destructuringDeclaration.Spells before piece rest captures) :
    before.any Text.isWord = false ∧ ∃ bracket body, Destructures bracket body piece ∧
      ∀ index length, ofDestructuringMatch ⟨index, length, captures⟩ = ofDestructuring body := by
  rw [destructuringDeclaration_eq, spells_seq] at spells
  obtain ⟨_, _, _, _, begins, ⟨_, _, _, _, keyword, ⟨between, _, _, _, layout, ⟨_, _, _, _,
    brackets, ⟨pad, _, _, _, layout', equals, rfl, rfl⟩, rfl, rfl⟩, rfl, rfl⟩, rfl, rfl⟩, rfl,
    rfl⟩ := spells
  obtain ⟨edge, rfl, rfl⟩ := spells_wordEdge.mp begins
  obtain ⟨⟨word, known, rfl⟩, rfl⟩ := (Kind.passes_variableWord _ _ _ _).mp keyword
  obtain ⟨blank, -, rfl⟩ := spells_blanks.mp layout
  obtain ⟨bracket, body, solid, rfl, rfl⟩ := spells_brackets.mp brackets
  obtain ⟨blank', -, rfl⟩ := spells_blanks.mp layout'
  obtain ⟨rfl, rfl⟩ := spells_text.mp equals
  have destructures : Destructures bracket body ([] ++ (word.toList ++ (between ++
      (bracket.opening :: (body ++ [bracket.closing]) ++ (pad ++ "=".toList))))) :=
    ⟨solid, word, known, between, pad, blank, blank', by simp⟩
  refine ⟨?_, bracket, body, destructures, ofDestructuringMatch_bracket bracket body _⟩
  have begins := destructures.head?_isWord rest
  rw [List.nil_append] at begins
  rw [begins] at edge
  simpa using edge

/-- Outside a word the pattern passes every destructuring declaration. -/
theorem Destructures.exists_spells {bracket : Bracket} {body text : List Char}
    (destructures : Destructures bracket body text) {before : Option Char}
    (edge : before.any Text.isWord = false) (rest : List Char) :
    ∃ captures, destructuringDeclaration.Spells before text rest captures := by
  have begins := destructures.head?_isWord rest
  obtain ⟨solid, word, known, between, pad, blank, blank', rfl⟩ := destructures
  have pieces : word.toList ++ (between ++ bracket.opening :: (body ++ bracket.closing ::
      (pad ++ ['=']))) = word.toList ++ (between ++ (bracket.opening ::
        (body ++ [bracket.closing]) ++ (pad ++ "=".toList))) := by
    simp
  rw [pieces] at begins ⊢
  refine ⟨[⟨bracket.number, body ++ bracket.closing :: (pad ++ "=".toList ++ rest), body.length⟩],
    [], _, [], _, spells_wordEdge.mpr ⟨?_, rfl, rfl⟩,
    ⟨_, _, [], _, (Kind.passes_variableWord _ _ _ _).mpr ⟨⟨word, known, rfl⟩, rfl⟩,
    ⟨between, bracket.opening :: (body ++ [bracket.closing]) ++ (pad ++ "=".toList), [], _,
      spells_blanks.mpr ⟨blank, bracket.isBlank_opening, rfl⟩,
    ⟨_, _, _, [], spells_brackets.mpr ⟨bracket, body, solid, rfl, rfl⟩,
    ⟨pad, _, [], [], spells_blanks.mpr ⟨blank', rfl, rfl⟩, spells_text.mpr ⟨rfl, rfl⟩, rfl, rfl⟩,
    rfl, rfl⟩, rfl, rfl⟩, rfl, rfl⟩, rfl, rfl⟩
  rw [edge, begins]
  decide

/-! ## Declarations that are found -/

theorem head?_isBlank_opening (bracket : Bracket) (rest : List Char) :
    (bracket.opening :: rest).head?.any Text.isBlank = false :=
  bracket.isBlank_opening

/-- Two destructuring declarations at one place have one pattern. -/
theorem Destructures.body_eq {bracket bracket' : Bracket} {body body' text text' : List Char}
    (destructures : Destructures bracket body text)
    (destructures' : Destructures bracket' body' text') {rest rest' : List Char}
    (same : text ++ rest = text' ++ rest') : body = body' := by
  obtain ⟨solid, word, known, between, pad, blank, -, rfl⟩ := destructures
  obtain ⟨solid', word', known', between', pad', blank', -, rfl⟩ := destructures'
  simp only [List.append_assoc, List.cons_append] at same
  obtain ⟨rfl, behind⟩ := Kind.eq_of_mem_words known known' same
  obtain ⟨-, brackets⟩ := Text.eq_of_append_run blank (head?_isBlank_opening bracket _) blank'
    (head?_isBlank_opening bracket' _) behind
  obtain ⟨opening, bodies⟩ := List.cons.inj brackets
  obtain rfl : bracket = bracket' := by
    cases bracket <;> cases bracket' <;> first | rfl | exact absurd opening (by decide)
  exact Text.eq_of_append_cons_eq solid solid' bodies

theorem Answers.closing_mem {text left right : List Char} (answers : Answers text)
    {bracket : Bracket} (opens : text = left ++ bracket.opening :: right) :
    bracket.closing ∈ right := by
  cases bracket with
  | curly => exact answers.braces left right opens
  | square => exact answers.squares left right opens

/-- No destructuring declaration reaches over a word behind a text that answers its brackets. -/
theorem Destructures.length_le {bracket : Bracket} {body text : List Char}
    (destructures : Destructures bracket body text) {first skipped back rest : List Char}
    (same : skipped ++ back = text ++ rest) (nonempty : skipped ≠ [])
    (edge : skipped.getLast?.any Name.isTail = false) (answers : Answers (first ++ skipped))
    (begins : back.head?.any Text.isWord = true) : text.length ≤ skipped.length := by
  obtain ⟨solid, word, known, between, pad, blank, blank', rfl⟩ := destructures
  cases back with
  | nil => cases begins
  | cons c back =>
    have nonblank : (c :: back).head?.any Text.isBlank = false :=
      Name.isBlank_eq_false_of_isTail (by simp [Name.isTail, show Text.isWord c = true from begins])
    have other {mark : Char} (outside : Text.isWord mark = false) : c ≠ mark := by
      rintro rfl
      exact absurd begins (by simp [outside])
    simp only [List.append_assoc, List.cons_append] at same
    -- the match starts in the text, so it holds the keyword, the layout and the bracket behind them
    obtain ⟨more, rfl, behindWord⟩ :=
      Text.exists_append_of_getLast? same (Kind.isTail_of_mem_words known) nonempty edge
    obtain ⟨more, rfl, behindLayout⟩ := Text.exists_append_of_head? behindWord blank nonblank
    cases more with
    | nil =>
      exact absurd (List.cons.inj behindLayout).1 (other (by cases bracket <;> decide))
    | cons d more =>
      rw [List.cons_append] at behindLayout
      obtain ⟨rfl, behindOpening⟩ := List.cons.inj behindLayout
      -- the text closes that bracket, so what the match holds in it ends in the text
      have opens : first ++ (word.toList ++ (between ++ bracket.opening :: more)) =
          first ++ (word.toList ++ between) ++ bracket.opening :: more := by
        simp
      obtain ⟨left, right, rfl, solid'⟩ := List.eq_append_cons_of_mem (answers.closing_mem opens)
      rw [List.append_assoc, List.cons_append] at behindOpening
      obtain rfl := Text.eq_of_append_cons_eq solid' solid behindOpening
      have behindClosing := (List.cons.inj (List.append_cancel_left behindOpening)).2
      obtain ⟨more, rfl, equals⟩ := Text.exists_append_of_head? behindClosing blank' nonblank
      cases more with
      | nil => exact absurd (List.cons.inj equals).1 (other (by decide))
      | cons d more =>
        simp only [List.length_append, List.length_cons, List.length_nil]
        omega

/-- Behind the edge of a word and a text that answers its brackets, a destructuring declaration is
found. -/
theorem Destructures.exists_mem_allMatches {bracket : Bracket} {body text : List Char}
    (destructures : Destructures bracket body text) {front : List Char}
    (edge : front.getLast?.any Name.isTail = false) (answers : Answers front) (rest : List Char) :
    ∃ found ∈ destructuringDeclaration.allMatches (front ++ (text ++ rest)),
      ofDestructuringMatch found = ofDestructuring body := by
  have outside : (lastOf none front).any Text.isWord = false := by
    simpa [lastOf] using Kind.isWord_eq_false_of_edge edge
  have begins := destructures.head?_isWord rest
  have nonempty : text ++ rest ≠ [] := by
    intro empty
    rw [empty] at begins
    cases begins
  obtain ⟨captures, spells⟩ := destructures.exists_spells outside rest
  obtain ⟨first, skipped, found, rfl, member, starts, covers⟩ :=
    exists_mem_allMatches_of_spells nonempty rfl spells
  refine ⟨found, member, ?_⟩
  obtain ⟨piece, after, captures, same, spells, rfl⟩ := exists_spells_of_matchAt starts
  obtain ⟨-, bracket', body', destructures', said⟩ := exists_destructures_of_spells spells
  -- A match that starts before the declaration and reaches into it would have to read over a
  -- bracket that the text in front answers.
  have direct : skipped = [] := by
    rcases covers with direct | covers
    · exact direct
    by_contra nonempty
    rw [List.getLast?_append_of_ne_nil _ nonempty] at edge
    have within := destructures'.length_le same nonempty edge answers begins
    exact absurd covers (Nat.not_lt.mpr within)
  subst direct
  rw [said, ← destructures.body_eq destructures' same]

/-! ## Reading the parts of a pattern -/

theorem dropSpread_eq_self {text : List Char} (other : text.head? ≠ some '.') :
    dropSpread text = text := by
  unfold dropSpread
  split
  · exact absurd rfl other
  · rfl

namespace Bindable

variable (bound : Bindable)

theorem head?_ne {mark : Char} (outside : Name.isTail mark = false) (rest : List Char) :
    (bound.text ++ rest).head? ≠ some mark := by
  obtain ⟨c, more, text⟩ := List.exists_cons_of_ne_nil bound.ne_nil
  rw [text, List.cons_append, List.head?_cons]
  rintro ⟨⟩
  exact bound.not_mem_of_isTail_eq_false outside (by simp [text])

/-- A name has no brackets around it. -/
theorem dropEnds_text {drop : Char → Bool} (kept : ∀ c, Name.isTail c = true → drop c = false) :
    Text.dropEnds drop bound.text = bound.text := by
  have first : bound.text.head?.any drop = false := by
    obtain ⟨c, more, text⟩ := List.exists_cons_of_ne_nil bound.ne_nil
    rw [text]
    exact kept c (bound.isTail_of_mem (by simp [text]))
  have last : bound.text.getLast?.any drop = false :=
    @Text.getLast?_any_append _ [] bound.text bound.ne_nil fun c member =>
      kept c (bound.isTail_of_mem member)
  rw [Text.dropEnds, Text.dropStart, Text.dropWhile_eq_self_of_head? first]
  simpa using @Text.dropEnd_append drop bound.text [] last (by simp)

end Bindable

/-- A part of a pattern binds what stands before its equals sign, behind a colon if it has one. -/
theorem ofPart_eq_some {part target : List Char} {bound : Bindable}
    (reads : Text.trim ((dropSpread (Text.trim part)).takeWhile (· != '=')) = target)
    (named : target = bound.text ∨ ∃ left pad, (∀ c ∈ pad, Text.isBlank c = true) ∧
      target = left ++ ':' :: (pad ++ bound.text)) : ofPart part = some bound.name := by
  have kept : ∀ c, Name.isTail c = true →
      (c == '[' || c == ']' || c == '{' || c == '}') = false := by
    intro c tail
    by_contra bracket
    simp only [Bool.not_eq_false, Bool.or_eq_true, beq_iff_eq] at bracket
    rcases bracket with ((rfl | rfl) | rfl) | rfl <;> exact absurd tail (by decide)
  have trimmed : Text.trim bound.text = bound.text := @Bindable.trim_padStart bound [] (by simp)
  rw [ofPart, reads]
  rcases named with rfl | ⟨left, pad, blank, rfl⟩
  -- without a colon the whole part is the name
  · have rare : bound.text.count ':' < [':'].count ':' := by
      rw [List.count_eq_zero.mpr (bound.not_mem_of_isTail_eq_false (by decide))]
      decide
    simp only [Text.cutLast_eq_none_of_count rare, bound.dropEnds_text kept, trimmed,
      bound.bindable?_text]
  · have last : ':' ∉ pad ++ bound.text := by
      intro member
      rcases List.mem_append.mp member with member | member
      · exact absurd (blank ':' member) (by decide)
      · exact bound.not_mem_of_isTail_eq_false (by decide) member
    simp only [Text.cutLast_singleton_append last, bound.trim_padStart blank,
      bound.dropEnds_text kept, trimmed, bound.bindable?_text]

namespace Element

/-- What a part of a pattern shows before its default. -/
def target (own : Bindable) (renamed : Option Retargeting) : List Char :=
  own.text ++ displayOf (renamedSegments renamed)

theorem target_none (own : Bindable) : target own none = own.text :=
  List.append_nil own.text

theorem target_some (own : Bindable) (renamed : Retargeting) :
    target own (some renamed) = own.text ++ renamed.before.display ++
      ':' :: (renamed.after.display ++ renamed.target.text) := by
  simp [target, renamedSegments]

section

variable (own : Bindable) (renamed : Option Retargeting)

theorem getLast?_target : (target own renamed).getLast?.any Text.isBlank = false := by
  cases renamed with
  | none =>
    rw [target_none]
    exact own.getLast?_isBlank []
  | some renamed =>
    have split : target own (some renamed) = own.text ++ renamed.before.display ++
        ':' :: renamed.after.display ++ renamed.target.text := by
      simp [target_some]
    rw [split]
    exact renamed.target.getLast?_isBlank _

theorem not_mem_target : '=' ∉ target own renamed := by
  have blank {layout : Layout} : '=' ∉ layout.display := fun member =>
    absurd (Layout.isBlank_of_mem_display member) (by decide)
  have named (bound : Bindable) : '=' ∉ bound.text :=
    bound.not_mem_of_isTail_eq_false (by decide)
  cases renamed with
  | none => simp [target_none, named]
  | some renamed => simp [target_some, blank, named]

theorem head?_target (rest : List Char) :
    (target own renamed ++ rest).head?.any Text.isBlank = false := by
  rw [target, List.append_assoc]
  exact own.head?_isBlank _

theorem target_ne_nil : target own renamed ≠ [] := by
  simp [target, own.ne_nil]

end

theorem displayOf_single (leading : Layout) (own : Bindable) (renamed : Option Retargeting)
    (fallback : Option Assigned) (trailing : Layout) :
    displayOf (single leading own renamed fallback trailing).segments =
      leading.display ++ (target own renamed ++ displayOf (fallbackSegments fallback)) ++
        trailing.display := by
  simp [segments, target]

theorem getLast?_fallback (own : Bindable) (renamed : Option Retargeting)
    (fallback : Option Assigned) :
    (target own renamed ++ displayOf (fallbackSegments fallback)).getLast?.any Text.isBlank =
      false := by
  cases fallback with
  | none =>
    have none : displayOf (fallbackSegments none) = [] := rfl
    rw [none, List.append_nil]
    exact getLast?_target own renamed
  | some assigned =>
    obtain ⟨more, mark, concat, final⟩ := assigned.exists_concat (target own renamed)
    rw [fallbackSegments, concat, List.getLast?_concat]
    rcases isFinal_iff.mp final with rfl | rfl | rfl <;> decide

/-- A default starts with layout and an equals sign. -/
theorem exists_fallback (fallback : Option Assigned) :
    ∃ pad rest, displayOf (fallbackSegments fallback) = pad ++ rest ∧
      (∀ c ∈ pad, Text.isBlank c = true) ∧ rest.head?.any (· != '=') = false := by
  cases fallback with
  | none => exact ⟨[], [], rfl, by simp, rfl⟩
  | some assigned =>
    exact ⟨_, _, assigned.displayOf_segments, fun _ => Layout.isBlank_of_mem_display, rfl⟩

/-- Of a part with a name, the name is read and the default is not. -/
theorem trim_takeWhile_single (leading : Layout) (own : Bindable) (renamed : Option Retargeting)
    (fallback : Option Assigned) (trailing : Layout) :
    Text.trim ((dropSpread (Text.trim (displayOf
      (single leading own renamed fallback trailing).segments))).takeWhile (· != '=')) =
        target own renamed := by
  have spread : (target own renamed ++ displayOf (fallbackSegments fallback)).head? ≠
      some '.' := by
    rw [target, List.append_assoc]
    exact own.head?_ne (by decide) _
  have trimmed := Text.trim_padded (fun _ => @Layout.isBlank_of_mem_display leading _)
    (fun _ => @Layout.isBlank_of_mem_display trailing _) (by simp [target_ne_nil])
    (head?_target own renamed (displayOf (fallbackSegments fallback)))
    (getLast?_fallback own renamed fallback)
  rw [displayOf_single, trimmed, dropSpread_eq_self spread]
  -- the default starts at the first equals sign, as neither the name nor its layout has one
  obtain ⟨pad, rest, shown, blank, equals⟩ := exists_fallback fallback
  have inside : ∀ c ∈ target own renamed ++ pad, (c != '=') = true := by
    intro c member
    rw [bne_iff_ne]
    rintro rfl
    rcases List.mem_append.mp member with member | member
    · exact not_mem_target own renamed member
    · exact absurd (blank '=' member) (by decide)
  rw [shown, ← List.append_assoc, Text.takeWhile_append_run inside equals]
  exact @Text.trim_padded [] (target own renamed) pad (by simp) blank (target_ne_nil own renamed)
    (by simpa only [List.append_nil] using head?_target own renamed [])
    (getLast?_target own renamed)

/-- Of the rest of a value, the name behind the dots is read. -/
theorem trim_takeWhile_rest (leading between : Layout) (own : Bindable) (trailing : Layout) :
    Text.trim ((dropSpread (Text.trim (displayOf
      (rest leading between own trailing).segments))).takeWhile (· != '=')) = own.text := by
  have shown : displayOf (rest leading between own trailing).segments =
      leading.display ++ ("...".toList ++ (between.display ++ own.text)) ++ trailing.display := by
    simp [segments]
  have last : ("...".toList ++ (between.display ++ own.text)).getLast?.any Text.isBlank =
      false := by
    rw [← List.append_assoc]
    exact own.getLast?_isBlank _
  have outside {mark : Char} (nonblank : Text.isBlank mark = false)
      (other : Name.isTail mark = false) : mark ∉ between.display ++ own.text := by
    intro member
    rcases List.mem_append.mp member with member | member
    · rw [Layout.isBlank_of_mem_display member] at nonblank
      cases nonblank
    · exact own.not_mem_of_isTail_eq_false other member
  have spread : (between.display ++ own.text).head? ≠ some '.' := fun dot =>
    outside (by decide) (by decide) (List.mem_of_head? dot)
  have dropped : dropSpread ("...".toList ++ (between.display ++ own.text)) =
      between.display ++ own.text :=
    dropSpread_eq_self spread
  have inside : ∀ c ∈ between.display ++ own.text, (c != '=') = true := by
    intro c member
    rw [bne_iff_ne]
    rintro rfl
    exact outside (by decide) (by decide) member
  rw [shown, Text.trim_padded (fun _ => Layout.isBlank_of_mem_display)
    (fun _ => Layout.isBlank_of_mem_display) (by simp) rfl last, dropped,
    List.takeWhile_eq_self_iff.mpr inside]
  exact own.trim_padStart fun _ => Layout.isBlank_of_mem_display

/-- A part of a pattern declares its name. -/
theorem ofPart_displayOf (element : Element) :
    ofPart (displayOf element.segments) = some element.bound.name := by
  cases element with
  | single leading own renamed fallback trailing =>
    refine ofPart_eq_some (trim_takeWhile_single leading own renamed fallback trailing) ?_
    cases renamed with
    | none => exact .inl (target_none own)
    | some renamed =>
      exact .inr ⟨_, _, fun _ => Layout.isBlank_of_mem_display, target_some own renamed⟩
  | rest leading between own trailing =>
    exact ofPart_eq_some (trim_takeWhile_rest leading between own trailing) (.inl rfl)

end Element

/-- A pattern declares the names of its parts. -/
theorem Destructured.ofDestructuring_bodyText (destructured : Destructured) :
    ofDestructuring destructured.bodyText =
      destructured.elements.map fun element => element.bound.name := by
  rw [bodyText]
  by_cases empty : destructured.elements = []
  · rw [empty]
    rfl
  · have solid : ∀ part ∈ destructured.elements.map fun element => displayOf element.segments,
        ',' ∉ part := by
      intro part listed member
      obtain ⟨element, -, rfl⟩ := List.mem_map.mp listed
      exact absurd (Element.isPartChar_of_mem member) (by decide)
    have each : (ofPart ∘ fun element : Element => displayOf element.segments) =
        some ∘ fun element => element.bound.name := by
      funext element
      rw [Function.comp_apply, element.ofPart_displayOf, Function.comp_apply]
    rw [ofDestructuring, List.splitOn_intercalate ',' solid (by simpa using empty),
      List.filterMap_map, each, List.filterMap_eq_map]

end ImportSupply.Binding
