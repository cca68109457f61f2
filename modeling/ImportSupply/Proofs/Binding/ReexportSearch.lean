import ImportSupply.Proofs.Binding.ImportSearch

/-!
# Searching scripts for re-exports

Searched for re-exports, a script of imports and re-exports says the names that its re-exports bind
(`Statement.finds_reexportStatement`). A re-export is read up to the quote of its module, with its
list or its namespace (`TargetAt.eq_of_append`). No other statement is read as one: what precedes
the brace or star of an import is its keyword or a comma.

Together with the search for imports this gives the names that a script of such statements binds
(`imported_script`), and so the candidates that are left (`withoutImported_script`).
-/

namespace ImportSupply.Binding

open Literal Pattern

/-! ## What a re-export spells -/

/-- A list or namespace as it is remembered: what stands before the remembered text, the text, what
stands behind it and the number of its group. -/
inductive TargetAt : List Char → List Char → List Char → Nat → Prop
  | list {body : List Char} (first : '}' ∉ body) : TargetAt ['{'] body ['}'] 1
  | star {pad space bound : List Char} (blank : ∀ c ∈ pad, Text.isBlank c = true)
      (spaced : IsGap space) (bindable : Name.isBindable bound = true) :
      TargetAt ('*' :: (pad ++ ("as".toList ++ space))) bound [] 2

section

variable {before : Option Char} {piece rest : List Char} {captures : List (Capture Char)}

theorem spells_starAs : starAs.Spells before piece rest captures ↔
    ∃ pad space, piece = '*' :: (pad ++ ("as".toList ++ space)) ∧
      (∀ c ∈ pad, Text.isBlank c = true) ∧ IsGap space ∧ rest.head?.any Text.isBlank = false ∧
      captures = [] := by
  simp only [starAs, spells_all_cons, spells_all_nil, spells_seq, spells_text, spells_blanks,
    spells_gap]
  constructor
  · rintro ⟨_, _, _, _, ⟨rfl, rfl⟩, ⟨pad, _, _, _, ⟨blank, -, rfl⟩, ⟨_, _, _, _, ⟨rfl, rfl⟩, ⟨space,
      _, _, _, ⟨isGap, stops, rfl⟩, ⟨rfl, rfl⟩, rfl, rfl⟩, rfl, rfl⟩, rfl, rfl⟩, rfl, rfl⟩
    exact ⟨pad, space, by simp, blank, isGap, stops, rfl⟩
  · rintro ⟨pad, space, rfl, blank, isGap, stops, rfl⟩
    exact ⟨_, _, [], [], ⟨rfl, rfl⟩, ⟨pad, _, [], [], ⟨blank, rfl, rfl⟩, ⟨_, space, [], [],
      ⟨rfl, rfl⟩, ⟨space, [], [], [], ⟨isGap, stops, rfl⟩, ⟨rfl, rfl⟩, by simp, rfl⟩, rfl, rfl⟩,
        rfl, rfl⟩, rfl, rfl⟩

/-- The names of a namespace that a re-export may remember: it need not go on to the end of a
name. -/
theorem spells_fewName :
    (seq (one Name.isHead) (few Name.isTail)).Spells before piece rest captures ↔
      Name.isBindable piece = true ∧ captures = [] := by
  simp only [Spells]
  constructor
  · rintro ⟨_, piece, _, _, ⟨⟨c, head, rfl⟩, rfl⟩, ⟨inside, rfl⟩, rfl, rfl⟩
    exact ⟨by simpa [Name.isBindable, head] using inside, rfl⟩
  · rintro ⟨bindable, rfl⟩
    cases piece with
    | nil => cases bindable
    | cons c piece =>
      obtain ⟨head, inside⟩ := (Bool.and_eq_true _ _).mp bindable
      exact ⟨[c], piece, [], [], ⟨⟨c, head, rfl⟩, rfl⟩, ⟨List.all_eq_true.mp inside, rfl⟩, rfl, rfl⟩

theorem spells_target :
    (either (bracketed '{' '}' 1)
      (seq starAs (group 2 (seq (one Name.isHead) (few Name.isTail))))).Spells before piece rest
        captures ↔
      ∃ opening inner behind number, TargetAt opening inner behind number ∧
        piece = opening ++ (inner ++ behind) ∧
        captures = [⟨number, inner ++ (behind ++ rest), inner.length⟩] := by
  rw [Spells, spells_bracketed, spells_seq]
  simp only [spells_starAs, spells_group, spells_fewName]
  constructor
  · rintro (⟨body, first, rfl, rfl⟩ | ⟨_, bound, _, _, ⟨pad, space, rfl, blank, isGap, -, rfl⟩,
      ⟨_, ⟨bindable, rfl⟩, rfl⟩, rfl, rfl⟩)
    · exact ⟨_, body, _, _, .list first, rfl, rfl⟩
    · exact ⟨_, bound, _, _, .star blank isGap bindable, by simp, rfl⟩
  · rintro ⟨_, inner, _, _, ⟨first⟩ | ⟨blank, isGap, bindable⟩, rfl, rfl⟩
    · exact .inl ⟨inner, first, rfl, rfl⟩
    · exact .inr ⟨_, inner, [], _, ⟨_, _, rfl, blank, isGap,
        head?_isBlank_of_isBindable bindable _, rfl⟩, ⟨[], ⟨bindable, rfl⟩, rfl⟩, by simp, rfl⟩

/-- The part of a re-export behind its list or namespace. -/
def reexportEnd : Pattern Char :=
  all [blanks, text "from", blanks, quote]

theorem passes_reexportEnd : Passes reexportEnd fun piece _ =>
    ∃ trail pad mark, piece = trail ++ ("from".toList ++ (pad ++ [mark])) ∧
      (∀ c ∈ trail, Text.isBlank c = true) ∧ (∀ c ∈ pad, Text.isBlank c = true) ∧
      isQuote mark = true := by
  intro before piece rest captures
  simp only [reexportEnd, spells_all_cons, spells_all_nil, spells_text, spells_blanks, quote,
    Spells]
  constructor
  · rintro ⟨trail, _, _, _, ⟨trailing, -, rfl⟩, ⟨_, _, _, _, ⟨rfl, rfl⟩, ⟨pad, _, _, _,
      ⟨blank, -, rfl⟩, ⟨_, _, _, _, ⟨⟨mark, quote, rfl⟩, rfl⟩, ⟨rfl, rfl⟩, rfl, rfl⟩, rfl, rfl⟩,
      rfl, rfl⟩, rfl, rfl⟩
    exact ⟨⟨trail, pad, mark, by simp, trailing, blank, quote⟩, rfl⟩
  · rintro ⟨⟨trail, pad, mark, rfl, trailing, blank, quote⟩, rfl⟩
    have stops : Text.isBlank mark = false := by
      rcases isQuote_iff.mp quote with rfl | rfl <;> decide
    exact ⟨trail, _, [], [], ⟨trailing, rfl, rfl⟩, ⟨_, pad ++ [mark], [], [], ⟨rfl, rfl⟩, ⟨pad,
      [mark], [], [], ⟨blank, by simpa using stops, rfl⟩, ⟨[mark], [], [], [],
        ⟨⟨mark, quote, rfl⟩, rfl⟩, ⟨rfl, rfl⟩, rfl, rfl⟩, rfl, rfl⟩, rfl, rfl⟩, rfl, rfl⟩

/-- The part of a re-export from its list or namespace on. -/
def reexportBody : Pattern Char :=
  seq blanks (seq (either (bracketed '{' '}' 1)
    (seq starAs (group 2 (seq (one Name.isHead) (few Name.isTail))))) reexportEnd)

theorem reexportStatement_eq :
    reexportStatement =
      seq wordEdge (seq (text "export") (seq (maybe typeWord) reexportBody)) :=
  rfl

theorem TargetAt.exists_cons {opening inner behind : List Char} {number : Nat}
    (targetAt : TargetAt opening inner behind number) :
    ∃ mark more, opening = mark :: more ∧ isMark mark = true := by
  cases targetAt with
  | list => exact ⟨'{', [], rfl, rfl⟩
  | star => exact ⟨'*', _, rfl, rfl⟩

theorem spells_reexportBody :
    reexportBody.Spells before piece rest captures ↔
      ∃ lead opening inner behind number trail pad mark,
        piece = lead ++ (opening ++ (inner ++ (behind ++ (trail ++
          ("from".toList ++ (pad ++ [mark])))))) ∧
        (∀ c ∈ lead, Text.isBlank c = true) ∧ TargetAt opening inner behind number ∧
        (∀ c ∈ trail, Text.isBlank c = true) ∧ (∀ c ∈ pad, Text.isBlank c = true) ∧
        isQuote mark = true ∧
        captures = [⟨number, inner ++ (behind ++ (trail ++ ("from".toList ++
          (pad ++ mark :: rest)))), inner.length⟩] := by
  simp only [reexportBody, spells_seq, spells_blanks, spells_target, passes_reexportEnd _ _ _ _]
  constructor
  · rintro ⟨lead, _, _, _, ⟨leading, -, rfl⟩, ⟨_, _, _, _, ⟨opening, inner, behind, number,
      targetAt, rfl, rfl⟩, ⟨⟨trail, pad, mark, rfl, trailing, blank, quote⟩, rfl⟩, rfl, rfl⟩, rfl,
      rfl⟩
    exact ⟨lead, opening, inner, behind, number, trail, pad, mark, by simp only [List.append_assoc],
      leading, targetAt, trailing, blank, quote, by simp only [List.append_assoc, List.cons_append,
        List.nil_append, List.append_nil]⟩
  · rintro ⟨lead, opening, inner, behind, number, trail, pad, mark, rfl, leading, targetAt,
      trailing, blank, quote, rfl⟩
    obtain ⟨first, more, rfl, isMark⟩ := targetAt.exists_cons
    have stops : Text.isBlank first = false := by
      rcases isMark_iff.mp isMark with rfl | rfl <;> decide
    exact ⟨lead, _, [], _, ⟨leading, by simpa using stops, rfl⟩, ⟨_, _, _, [], ⟨_, inner, behind,
      number, targetAt, rfl, rfl⟩, ⟨⟨trail, pad, mark, rfl, trailing, blank, quote⟩, rfl⟩,
        by simp only [List.append_assoc], rfl⟩, rfl, by simp only [List.append_assoc,
          List.cons_append, List.nil_append, List.append_nil]⟩

/-- What a re-export spells: its keyword, perhaps the word `type`, and its body. -/
theorem spells_reexportStatement :
    reexportStatement.Spells before piece rest captures ↔
      ∃ typed body, piece = "export".toList ++ (typed ++ body) ∧ before.any Text.isWord = false ∧
        (IsTyping typed ∧ (typed ≠ [] → (body ++ rest).head?.any Text.isWord = false)) ∧
        reexportBody.Spells none body rest captures := by
  simp only [reexportStatement_eq, spells_seq, spells_wordEdge, spells_text,
    passes_maybe_typeWord _ _ _ _]
  constructor
  · rintro ⟨_, _, _, _, ⟨edge, rfl, rfl⟩, ⟨_, _, _, _, ⟨rfl, rfl⟩, ⟨typed, body, _, _, ⟨own, rfl⟩,
      spells, rfl, rfl⟩, rfl, rfl⟩, rfl, rfl⟩
    have edge : before.any Text.isWord ≠ true := edge
    rw [spells_reexportBody, ← @spells_reexportBody none] at spells
    exact ⟨typed, body, rfl, by simpa using edge, own, by simpa using spells⟩
  · rintro ⟨typed, body, rfl, outside, own, spells⟩
    refine ⟨[], _, [], captures, ⟨?_, rfl, rfl⟩, ⟨_, _, [], captures, ⟨rfl, rfl⟩, ⟨typed, body, [],
      captures, ⟨own, rfl⟩, ?_, rfl, by simp⟩, rfl, by simp⟩, rfl, by simp⟩
    · rw [outside]
      exact Bool.false_ne_true
    · rwa [spells_reexportBody, ← @spells_reexportBody none]

end

/-! ## One match -/

theorem ofReexport_list (index length : Nat) (body rest : List Char) :
    ofReexport ⟨index, length, [⟨1, body ++ rest, body.length⟩]⟩ = ofList body := by
  simp [ofReexport, Match.piece?, Capture.piece]

theorem ofReexport_star (index length : Nat) (bound rest : List Char) :
    ofReexport ⟨index, length, [⟨2, bound ++ rest, bound.length⟩]⟩ = [String.ofList bound] := by
  simp [ofReexport, Match.piece?, Capture.piece]

theorem isQuote_eq_false_of_bindable {bound pad : List Char}
    (tails : ∀ c ∈ bound, Name.isTail c = true) (blank : ∀ c ∈ pad, Text.isBlank c = true) :
    ∀ c ∈ bound ++ pad, isQuote c = false := by
  intro c member
  rcases List.mem_append.mp member with member | member
  · exact isQuote_eq_false_of_isClauseChar (isClauseChar_of_isTail (tails c member))
  · exact isQuote_eq_false_of_isBlank (blank c member)

/-- In front of the quote of a module a list or namespace is read in one way. -/
theorem TargetAt.eq_of_append {opening inner behind : List Char} {number : Nat}
    (targetAt : TargetAt opening inner behind number) {trail pad gap rest rest' : List Char}
    {mark mark' : Char} (trailing : ∀ c ∈ trail, Text.isBlank c = true)
    (blank : ∀ c ∈ pad, Text.isBlank c = true) (blank' : ∀ c ∈ gap, Text.isBlank c = true)
    (quote : isQuote mark = true) (quote' : isQuote mark' = true) {target : Target}
    (same : opening ++ (inner ++ (behind ++ (trail ++ ("from".toList ++ (pad ++ mark :: rest))))) =
      displayOf target.segments ++ ("from".toList ++ (gap ++ mark' :: rest'))) :
    rest = rest' ∧ ∀ index length more,
      ofReexport ⟨index, length, [⟨number, inner ++ more, inner.length⟩]⟩ = target.names := by
  have quoteStops {mark : Char} (quote : isQuote mark = true) (rest : List Char) :
      (mark :: rest).head?.any Text.isBlank = false := by
    rcases isQuote_iff.mp quote with rfl | rfl <;> rfl
  -- The first character tells lists and namespaces apart; what is read ends at the first brace or
  -- at the quote.
  cases targetAt with
  | list first =>
    cases target with
    | star => exact absurd (List.cons.inj same).1 (by decide)
    | list slots layout =>
      have lists : inner ++ '}' :: (trail ++ ("from".toList ++ (pad ++ mark :: rest))) =
          listText slots ++ '}' :: (layout.display ++
            ("from".toList ++ (gap ++ mark' :: rest'))) := by
        simpa [Target.displayOf_list] using same
      have absent : '}' ∉ listText slots := fun member =>
        absurd (isListed_of_mem_listText member) (by decide)
      obtain rfl := Text.eq_of_append_cons_eq first absent lists
      obtain ⟨-, behind⟩ := List.cons.inj (List.append_cancel_left lists)
      obtain ⟨-, words⟩ := Text.eq_of_append_run trailing rfl
        (fun _ => Layout.isBlank_of_mem_display) rfl behind
      obtain ⟨-, ends⟩ := Text.eq_of_append_run blank (quoteStops quote rest) blank'
        (quoteStops quote' rest') (List.append_cancel_left words)
      refine ⟨(List.cons.inj ends).2, fun index length more => ?_⟩
      rw [ofReexport_list, ofList_listText]
      rfl
  | @star indent space _ leading spaced bindable =>
    cases target with
    | list => exact absurd (List.cons.inj same).1 (by decide)
    | star before after bound layout =>
      have words : indent ++ ("as".toList ++ (space ++ (inner ++
          (trail ++ ("from".toList ++ (pad ++ mark :: rest)))))) =
            before.display ++ ("as".toList ++ (after.display ++ (bound.text ++ (layout.display ++
              ("from".toList ++ (gap ++ mark' :: rest')))))) := by
        simpa [Target.displayOf_star] using same
      obtain ⟨-, names⟩ := Text.eq_of_append_run leading rfl
        (fun _ => Layout.isBlank_of_mem_display) rfl words
      obtain ⟨-, names⟩ := Text.eq_of_append_run spaced.2 (head?_isBlank_of_isBindable bindable _)
        (fun _ => Spacing.isBlank_of_mem_display) (bound.head?_isBlank _)
        (List.append_cancel_left names)
      rw [← List.append_assoc, ← List.append_assoc bound.text] at names
      have blankBehind : ∀ c ∈ layout.display, Text.isBlank c = true := fun _ =>
        Spacing.isBlank_of_mem_display
      obtain ⟨fronts, -, -, ends⟩ := eq_of_stretch
        (isQuote_eq_false_of_bindable ((Name.isBindable_iff.mp bindable).2) trailing)
        (isQuote_eq_false_of_bindable (fun _ => bound.isTail_of_mem) blankBehind) blank blank' quote
        quote' names
      obtain ⟨rfl, -⟩ := Text.eq_of_append_run (Name.isBindable_iff.mp bindable).2
        (Name.head?_isTail_of_blank trailing) (fun _ => bound.isTail_of_mem)
        (Name.head?_isTail_of_blank blankBehind) fronts
      refine ⟨ends, fun index length more => ?_⟩
      rw [ofReexport_star]
      rfl

theorem Target.exists_targetAt (target : Target) :
    ∃ opening inner behind number trail, TargetAt opening inner behind number ∧
      (∀ c ∈ trail, Text.isBlank c = true) ∧
      displayOf target.segments = opening ++ (inner ++ (behind ++ trail)) := by
  cases target with
  | list slots trailing =>
    refine ⟨_, listText slots, _, _, trailing.display, .list fun member => ?_,
      fun _ => Layout.isBlank_of_mem_display, displayOf_list slots trailing⟩
    exact absurd (isListed_of_mem_listText member) (by decide)
  | star before after bound trailing =>
    have blank : ∀ c ∈ before.display, Text.isBlank c = true := fun _ =>
      Layout.isBlank_of_mem_display
    have spaced : IsGap after.display :=
      ⟨after.display_ne_nil, fun _ => Spacing.isBlank_of_mem_display⟩
    refine ⟨_, bound.text, _, _, trailing.display, .star blank spaced bound.bindable,
      fun _ => Spacing.isBlank_of_mem_display, ?_⟩
    simp [displayOf_star]

theorem head?_isWord_of_mark {lead : List Char} (blank : ∀ c ∈ lead, Text.isBlank c = true)
    {mark : Char} (isMark : isMark mark = true) (rest : List Char) :
    (lead ++ mark :: rest).head?.any Text.isWord = false := by
  cases lead with
  | nil => rcases isMark_iff.mp isMark with rfl | rfl <;> rfl
  | cons c lead => exact Text.isWord_eq_false_of_isBlank (blank c List.mem_cons_self)

/-- Between the keyword of a re-export and its brace or star there is no other mark. -/
theorem IsTyping.isMark_eq_false {typed lead : List Char} (typing : IsTyping typed)
    (blank : ∀ c ∈ lead, Text.isBlank c = true) : ∀ c ∈ typed ++ lead, isMark c = false := by
  have solid {c : Char} (blank : Text.isBlank c = true) : isMark c = false :=
    isMark_eq_false_of_isListed (isListed_of_isBlank blank)
  intro c member
  rcases List.mem_append.mp member with member | member
  · rcases typing.isBlank_or_mem member with blank | word
    · exact solid blank
    · exact (by decide : ∀ c ∈ "type".toList, isMark c = false) c word
  · exact solid (blank c member)

namespace Statement

theorem exists_spells_reexports (typed : Option Spacing) (leading : Layout) (target : Target)
    (gap : Layout) (source : Quoted) {before : Option Char}
    (outside : before.any Text.isWord = false) (back : List Char) :
    ∃ captures, reexportStatement.Spells before
      (reexports typed leading target gap source).shownStart back captures := by
  have blank : ∀ c ∈ gap.display, Text.isBlank c = true := fun _ => Layout.isBlank_of_mem_display
  have lead : ∀ c ∈ leading.display, Text.isBlank c = true := fun _ => Layout.isBlank_of_mem_display
  obtain ⟨opening, inner, behind, number, trail, targetAt, trailing, shown⟩ :=
    target.exists_targetAt
  have body := (@spells_reexportBody none _ back _).mpr ⟨leading.display, opening, inner, behind,
    number, trail, gap.display, source.quote.char, rfl, lead, targetAt, trailing, blank,
    isQuote_char source.quote, rfl⟩
  refine ⟨_, spells_reexportStatement.mpr
    ⟨displayOf (typeSegments typed), _, ?_, outside, ?_, body⟩⟩
  · rw [shownStart_reexports, exportHead_eq, shown]
    simp only [List.append_assoc]
  · obtain ⟨mark, more, rfl, isMark⟩ := targetAt.exists_cons
    refine ⟨isTyping_displayOf typed, fun _ => ?_⟩
    rw [List.append_assoc, List.cons_append, List.cons_append]
    exact head?_isWord_of_mark lead isMark _

/-- A re-export binds the names of its list or namespace. -/
theorem finds_reexports (typed : Option Spacing) (leading : Layout) (target : Target) (gap : Layout)
    (source : Quoted) :
    Finds reexportStatement ofReexport (reexports typed leading target gap source).shownStart
      target.names := by
  refine finds_of_spells (by simp [shownStart]) (getLast?_isWord_shownStart _)
    (fun _ back outside => exists_spells_reexports typed leading target gap source outside back)
    fun before back piece rest captures same spells => ?_
  have blank : ∀ c ∈ gap.display, Text.isBlank c = true := fun _ => Layout.isBlank_of_mem_display
  have lead : ∀ c ∈ leading.display, Text.isBlank c = true := fun _ => Layout.isBlank_of_mem_display
  obtain ⟨typed', body, rfl, -, ⟨typing, -⟩, body_spells⟩ := spells_reexportStatement.mp spells
  obtain ⟨lead', opening, inner, behind, number, trail, pad, mark, rfl, leading', targetAt,
    trailing, blank', quote, rfl⟩ := spells_reexportBody.mp body_spells
  obtain ⟨first, more, cons, isMark⟩ := targetAt.exists_cons
  -- the first mark behind the keyword is that of the list or namespace in every reading
  have marks : displayOf (typeSegments typed) ++ leading.display ++ (displayOf target.segments ++
      ("from".toList ++ (gap.display ++ source.quote.char :: back))) =
        typed' ++ lead' ++ (opening ++ (inner ++ (behind ++ (trail ++ ("from".toList ++
          (pad ++ mark :: rest)))))) := by
    rw [shownStart_reexports, exportHead_eq] at same
    simpa using same
  have stops : (displayOf target.segments ++ ("from".toList ++ (gap.display ++
      source.quote.char :: back))).head?.any (!Binding.isMark ·) = false := by
    cases target <;> rfl
  obtain ⟨-, targets⟩ := Text.eq_of_append_run
    (by simpa using (isTyping_displayOf typed).isMark_eq_false lead) stops
    (by simpa using typing.isMark_eq_false leading') (by simp [cons, isMark]) marks
  obtain ⟨rests, said⟩ := targetAt.eq_of_append trailing blank' blank quote
    (isQuote_char source.quote) targets.symm
  exact ⟨rests.symm, fun index length => said index length _⟩

end Statement

/-! ## Statements that re-export nothing -/

theorem starts_reexportStatement : ∀ c, reexportStatement.starts c = true → c = 'e' := by
  simp [reexportStatement_eq, wordEdge, text, exactly, all, starts, nullable]

/-- A re-export that is read in a text up to its first quote has its brace or star there. -/
theorem exists_mark_of_spells {tail back piece rest : List Char} {before : Option Char}
    {captures : List (Capture Char)} (nonempty : tail ≠ [])
    (quoted : tail.getLast?.any (!isQuote ·) = false) (same : tail ++ back = piece ++ rest)
    (spells : reexportStatement.Spells before piece rest captures) :
    ∃ typed lead mark more, tail = "export".toList ++ (typed ++ lead) ++ mark :: more ∧
      IsTyping typed ∧ (∀ c ∈ lead, Text.isBlank c = true) ∧ isMark mark = true := by
  obtain ⟨typed, body, rfl, -, ⟨typing, -⟩, body_spells⟩ := spells_reexportStatement.mp spells
  obtain ⟨lead, opening, inner, behind, number, trail, pad, quote, rfl, leading, targetAt, -⟩ :=
    spells_reexportBody.mp body_spells
  obtain ⟨mark, more, rfl, isMark⟩ := targetAt.exists_cons
  have unquoted : ∀ c ∈ "export".toList ++ (typed ++ lead) ++ [mark], (!isQuote c) = true := by
    intro c member
    rw [Bool.not_eq_true']
    simp only [List.mem_append, List.mem_singleton] at member
    rcases member with (member | member | member) | rfl
    · exact (by decide : ∀ c ∈ "export".toList, isQuote c = false) c member
    · rcases typing.isBlank_or_mem member with blank | word
      · exact isQuote_eq_false_of_isBlank blank
      · exact (by decide : ∀ c ∈ "type".toList, isQuote c = false) c word
    · exact isQuote_eq_false_of_isBlank (leading c member)
    · rcases isMark_iff.mp isMark with rfl | rfl <;> decide
  have split : tail ++ back = "export".toList ++ (typed ++ lead) ++ [mark] ++ (more ++ (inner ++
      (behind ++ (trail ++ ("from".toList ++ (pad ++ [quote])))) ++ rest)) := by
    simpa using same
  -- the text ends with its first quote, and what comes before the brace or star has none
  obtain ⟨more, rfl, -⟩ := Text.exists_append_of_getLast? split unquoted nonempty quoted
  exact ⟨typed, lead, mark, more, by simp, typing, leading, isMark⟩

/-- A text with one mark has it in one place. -/
theorem eq_of_mark {front front' rest rest' : List Char} {mark mark' : Char}
    (unmarked : ∀ c ∈ front, isMark c = false) (unmarked' : ∀ c ∈ rest, isMark c = false)
    (marked : isMark mark' = true) (same : front ++ mark :: rest = front' ++ mark' :: rest') :
    front = front' := by
  rcases List.append_eq_append_iff.mp same with ⟨more, rfl, tail⟩ | ⟨more, rfl, tail⟩
  · cases more with
    | nil => simp
    | cons c more =>
      obtain ⟨-, rfl⟩ := List.cons.inj tail
      exact absurd marked (by simp [unmarked' mark'])
  · cases more with
    | nil => simp
    | cons c more =>
      obtain ⟨rfl, -⟩ := List.cons.inj tail
      exact absurd marked (by simp [unmarked mark'])

theorem Target.exists_mark (target : Target) :
    ∃ mark more, displayOf target.segments = mark :: more ∧ ∀ c ∈ more, isMark c = false := by
  have solid {c : Char} (blank : Text.isBlank c = true) : isMark c = false :=
    isMark_eq_false_of_isListed (isListed_of_isBlank blank)
  cases target with
  | list slots trailing =>
    refine ⟨_, _, displayOf_list slots trailing, fun c member => ?_⟩
    simp only [List.mem_append, List.mem_cons] at member
    rcases member with member | rfl | member
    · exact isMark_eq_false_of_isListed (isListed_of_mem_listText member)
    · decide
    · exact solid (Layout.isBlank_of_mem_display member)
  | star before after bound trailing =>
    refine ⟨_, _, displayOf_star before after bound trailing, fun c member => ?_⟩
    simp only [List.mem_append] at member
    rcases member with member | member | member | member | member
    · exact solid (Layout.isBlank_of_mem_display member)
    · exact (by decide : ∀ c ∈ "as".toList, isMark c = false) c member
    · exact solid (Spacing.isBlank_of_mem_display member)
    · exact isMark_eq_false_of_isListed (isListed_of_isTail (bound.isTail_of_mem member))
    · exact solid (Spacing.isBlank_of_mem_display member)

theorem Clause.isMark_eq_false_of_back (clause : Clause) {mark : Char} {more : List Char}
    (back_eq : clause.back = mark :: more) : ∀ c ∈ more, isMark c = false := by
  have target_case (target : Target) (same : displayOf target.segments = mark :: more) :
      ∀ c ∈ more, isMark c = false := by
    obtain ⟨mark', more', shown, unmarked⟩ := target.exists_mark
    obtain ⟨-, rfl⟩ := List.cons.inj (shown.symm.trans same)
    exact unmarked
  cases clause with
  | default => cases back_eq
  | bare leading target => exact target_case target back_eq
  | both leading bound before after target => exact target_case target back_eq

namespace Statement

theorem getLast?_isQuote_of_shownStart {statement : Statement} {front tail : List Char}
    (split : statement.shownStart = front ++ tail) (nonempty : tail ≠ []) :
    tail.getLast?.any (!isQuote ·) = false := by
  have last := congrArg List.getLast? split
  rw [shownStart, List.getLast?_concat, List.getLast?_append_of_ne_nil _ nonempty] at last
  rw [← last]
  simp [isQuote_char]

theorem isMark_eq_false_of_mem_from {pad : List Char} (blank : ∀ c ∈ pad, Text.isBlank c = true)
    (quote : Quote) : ∀ c ∈ "from".toList ++ (pad ++ [quote.char]), isMark c = false := by
  intro c member
  simp only [List.mem_append, List.mem_singleton] at member
  rcases member with member | member | rfl
  · exact (by decide : ∀ c ∈ "from".toList, isMark c = false) c member
  · exact isMark_eq_false_of_isListed (isListed_of_isBlank (blank c member))
  · cases quote <;> decide

/-- What precedes the brace or star of an import does not end with the keyword of a re-export. -/
theorem importHead_ne {typed : Option Spacing} {clause : Clause} {front typed' lead : List Char}
    (typing : IsTyping typed') (blank : ∀ c ∈ lead, Text.isBlank c = true)
    (marked : clause.back ≠ []) :
    "import".toList ++ (displayOf (typeSegments typed) ++
      (clause.leading.display ++ clause.front)) ≠
        front ++ ("export".toList ++ (typed' ++ lead)) := by
  intro same
  have keyword : 'x' ∈ front ++ ("export".toList ++ (typed' ++ lead)) := by simp
  cases clause with
  | default => exact marked rfl
  | bare leading target =>
    rw [← same] at keyword
    simp only [Clause.front, List.mem_append, List.not_mem_nil, or_false] at keyword
    rcases keyword with wrong | wrong | wrong
    · exact absurd wrong (by decide)
    · rcases (isTyping_displayOf typed).isBlank_or_mem wrong with wrong | wrong <;>
        exact absurd wrong (by decide)
    · exact absurd (Layout.isBlank_of_mem_display wrong) (by decide)
  | both leading bound before after target =>
    -- a comma and blanks stand there, and the keyword is on neither side of the comma
    have split : "import".toList ++ (displayOf (typeSegments typed) ++ (leading.layout.display ++
        (bound.text ++ before.display))) ++ ',' :: after.display =
          front ++ ("export".toList ++ (typed' ++ lead)) := by
      simpa [Clause.front, Clause.leading] using same
    rcases List.append_eq_append_iff.mp split with ⟨more, -, tail⟩ | ⟨more, -, tail⟩
    · cases more with
      | nil => exact absurd (List.cons.inj tail).1 (by decide)
      | cons c more =>
        have wrong : 'x' ∈ after.display := by
          rw [(List.cons.inj tail).2]
          simp
        exact absurd (Layout.isBlank_of_mem_display wrong) (by decide)
    · have comma : ',' ∈ "export".toList ++ (typed' ++ lead) := by
        rw [tail]
        simp
      simp only [List.mem_append] at comma
      rcases comma with wrong | wrong | wrong
      · exact absurd wrong (by decide)
      · rcases typing.isBlank_or_mem wrong with wrong | wrong <;> exact absurd wrong (by decide)
      · exact absurd (blank ',' wrong) (by decide)

/-- An import re-exports nothing. -/
theorem finds_nil_imports (typed : Option Spacing) (clause : Clause) (gap : Layout)
    (source : Quoted) :
    Finds reexportStatement ofReexport (imports typed clause gap source).shownStart [] := by
  refine finds_nil (getLast?_isWord_shownStart _) ?_
  intro front tail back before piece rest captures split nonempty same spells
  obtain ⟨typed', lead, mark, more, rfl, typing, blank, marked⟩ :=
    exists_mark_of_spells nonempty (getLast?_isQuote_of_shownStart split nonempty) same spells
  have unmarked : ∀ c ∈ "import".toList ++ (displayOf (typeSegments typed) ++
      (clause.leading.display ++ clause.front)), isMark c = false := by
    intro c member
    simp only [← List.append_assoc (displayOf (typeSegments typed)), List.mem_append] at member
    rcases member with member | member | member
    · exact (by decide : ∀ c ∈ "import".toList, isMark c = false) c member
    · exact (isTyping_displayOf typed).isMark_eq_false (fun _ => Layout.isBlank_of_mem_display) c
        (List.mem_append.mpr member)
    · exact isMark_eq_false_of_isListed (Clause.isListed_of_mem_front member)
  have ending := isMark_eq_false_of_mem_from (fun _ => @Layout.isBlank_of_mem_display gap _)
    source.quote
  have whole : "import".toList ++ (displayOf (typeSegments typed) ++ (clause.leading.display ++
      clause.front)) ++ (clause.back ++ ("from".toList ++ (gap.display ++ [source.quote.char]))) =
        front ++ ("export".toList ++ (typed' ++ lead)) ++ mark :: more := by
    rw [shownStart_imports, clause.displayOf_segments] at split
    simpa using split
  cases back_eq : clause.back with
  | nil =>
    -- a clause with a default name alone has no mark at all
    have member : mark ∈ front ++ ("export".toList ++ (typed' ++ lead)) ++ mark :: more := by simp
    rw [← whole, back_eq, List.nil_append] at member
    rcases List.mem_append.mp member with member | member
    · exact absurd marked (by simp [unmarked mark member])
    · exact absurd marked (by simp [ending mark member])
  | cons first others =>
    have rest_unmarked : ∀ c ∈ others ++ ("from".toList ++ (gap.display ++ [source.quote.char])),
        isMark c = false := by
      intro c member
      rcases List.mem_append.mp member with member | member
      · exact clause.isMark_eq_false_of_back back_eq c member
      · exact ending c member
    rw [back_eq, List.cons_append] at whole
    exact absurd (eq_of_mark unmarked rest_unmarked marked whole)
      (importHead_ne typing blank (by simp [back_eq]))

/-- An import without a clause shows no keyword of a re-export. -/
theorem finds_nil_effect_reexport (gap : Layout) (source : Quoted) :
    Finds reexportStatement ofReexport (effect gap source).shownStart [] := by
  refine finds_nil_of_not_mem rfl starts_reexportStatement ?_ (getLast?_isWord_shownStart _)
  have shown : (effect gap source).shownStart =
      "import".toList ++ (gap.display ++ [source.quote.char]) := by
    simp [shownStart, opening, Statement.source]
  rw [shown]
  simp only [List.mem_append, not_or]
  refine ⟨by decide, fun member => ?_, ?_⟩
  · exact absurd (Layout.isBlank_of_mem_display member) (by decide)
  · cases source.quote <;> decide

/-- A re-export of everything binds no name: behind its star there is no `as`. -/
theorem finds_nil_everything_reexport (leading trailing gap : Layout) (source : Quoted) :
    Finds reexportStatement ofReexport (everything leading trailing gap source).shownStart [] := by
  refine finds_nil (getLast?_isWord_shownStart _) ?_
  intro front tail back before piece rest captures split nonempty same spells
  have lead : ∀ c ∈ leading.display, Text.isBlank c = true := fun _ => Layout.isBlank_of_mem_display
  have later : 'e' ∉ "xport".toList ++ (leading.display ++ ('*' :: (trailing.display ++
      ("from".toList ++ (gap.display ++ [source.quote.char]))))) := by
    have layout {layout : Layout} : 'e' ∉ layout.display := fun member =>
      absurd (Layout.isBlank_of_mem_display member) (by decide)
    simp only [List.mem_append, List.mem_cons, not_or]
    refine ⟨by decide, layout, by decide, layout, by decide, layout, ?_, by simp⟩
    cases source.quote <;> decide
  have shown : (everything leading trailing gap source).shownStart = 'e' :: ("xport".toList ++
      (leading.display ++ ('*' :: (trailing.display ++
        ("from".toList ++ (gap.display ++ [source.quote.char])))))) := by
    simp [shownStart, opening, Statement.source]
  obtain ⟨typed, body, rfl, -, ⟨typing, -⟩, body_spells⟩ := spells_reexportStatement.mp spells
  obtain ⟨lead', opening, inner, behind, number, trail, pad, mark, rfl, leading', targetAt, -⟩ :=
    spells_reexportBody.mp body_spells
  obtain ⟨first, others, cons, isMark⟩ := targetAt.exists_cons
  -- the statement has one `e`, so the keyword is read at its start
  obtain ⟨c, tail, rfl⟩ := List.exists_cons_of_ne_nil nonempty
  obtain rfl : c = 'e' := (List.cons.inj same).1
  rw [shown] at split
  cases front with
  | cons d front =>
    rw [(List.cons.inj split).2] at later
    exact absurd (by simp) later
  | nil =>
    have marks : leading.display ++ ('*' :: (trailing.display ++ ("from".toList ++ (gap.display ++
        source.quote.char :: back)))) = typed ++ lead' ++ (opening ++ (inner ++ (behind ++ (trail ++
          ("from".toList ++ (pad ++ mark :: rest)))))) := by
      rw [List.nil_append] at split
      rw [← split] at same
      simpa using same
    obtain ⟨-, stars⟩ := @Text.eq_of_append_run (!Binding.isMark ·) _ _ _ _
      (by simpa using IsTyping.isMark_eq_false (.inl rfl) lead) rfl
      (by simpa using typing.isMark_eq_false leading') (by simp [cons, isMark]) marks
    cases targetAt with
    | list => exact absurd (List.cons.inj stars).1 (by decide)
    | @star indent space _ blank =>
      have words : trailing.display ++ ("from".toList ++ (gap.display ++
          source.quote.char :: back)) = indent ++ ("as".toList ++ (space ++ (inner ++ (trail ++
            ("from".toList ++ (pad ++ mark :: rest)))))) := by
        simpa using stars
      obtain ⟨-, wrong⟩ := Text.eq_of_append_run (fun _ => Layout.isBlank_of_mem_display) rfl
        blank rfl words
      exact absurd (List.cons.inj wrong).1 (by decide)

/-- Searched for re-exports, a statement says the names that it re-exports. -/
theorem finds_reexportStatement (statement : Statement) :
    Finds reexportStatement ofReexport (displayOf statement.segments) statement.reexported := by
  have ending : Finds reexportStatement ofReexport statement.shownEnd [] :=
    finds_shownEnd rfl starts_reexportStatement (by decide) (by decide) statement
  rw [statement.displayOf_segments, ← List.append_nil statement.reexported]
  refine Finds.append ?_ ending
  cases statement with
  | effect gap source => exact finds_nil_effect_reexport gap source
  | imports typed clause gap source => exact finds_nil_imports typed clause gap source
  | reexports typed leading target gap source =>
    exact finds_reexports typed leading target gap source
  | everything leading trailing gap source =>
    exact finds_nil_everything_reexport leading trailing gap source

end Statement

/-! ## Scripts -/

/-- A search that starts at words says in a script what it says in the statements. -/
theorem finds_script {pattern : Pattern Char} {read : Match Char → List String} {first : Char}
    {said : Statement → List String} (needs : pattern.nullable = false)
    (heads : ∀ c, pattern.starts c = true → c = first) (solid : Text.isBlank first = false)
    (finds : ∀ statement : Statement,
      Finds pattern read (displayOf statement.segments) (said statement))
    (leading : Layout) (lines : List StatementLine) :
    Finds pattern read (displayOf (scriptOf leading lines))
      (lines.flatMap fun line => said line.statement) := by
  -- layout has no character at which the search starts, so only statements say something
  have layout (layout : Layout) : Finds pattern read layout.display [] := by
    refine finds_nil_of_not_mem needs heads (fun member => ?_) ?_
    · rw [Layout.isBlank_of_mem_display member] at solid
      cases solid
    · rw [Option.any_eq_false]
      intro c last
      have blank := Layout.isBlank_of_mem_display (List.mem_of_getLast? last)
      simp [Text.isWord_eq_false_of_isBlank blank]
  have line (line : StatementLine) :
      Finds pattern read (displayOf line.segments) (said line.statement) := by
    rw [StatementLine.segments, displayOf_append, displayOf_layout, ← List.append_nil (said _)]
    exact (finds line.statement).append (layout line.trailing)
  have shown : displayOf (scriptOf leading lines) =
      leading.display ++ lines.flatMap fun line => displayOf line.segments := by
    rw [scriptOf, displayOf_append, displayOf_layout, displayOf_flatMap]
  rw [shown, ← List.nil_append (lines.flatMap _)]
  exact (layout leading).append (Finds.flatMap fun one _ => line one)

/-- A script of imports and re-exports binds the names of its statements: first those that it
imports, then those that it re-exports. -/
theorem imported_script (leading : Layout) (lines : List StatementLine) :
    imported (textOf (scriptOf leading lines)) =
      (lines.flatMap fun line => line.statement.imported) ++
        lines.flatMap fun line => line.statement.reexported := by
  have imports := finds_script rfl Statement.starts_importStatement (by decide)
    Statement.finds_importStatement leading lines
  have reexports := finds_script rfl starts_reexportStatement (by decide)
    Statement.finds_reexportStatement leading lines
  rw [imported, mask_textOf, importedIn, imports.flatMap_allMatches, reexports.flatMap_allMatches]

/-- Of the candidates, a script of imports and re-exports leaves exactly those that no statement
binds, in their order. -/
theorem withoutImported_script (leading : Layout) (lines : List StatementLine)
    (candidates : List String) :
    withoutImported (textOf (scriptOf leading lines)) candidates =
      candidates.filter fun name =>
        !(lines.flatMap fun line => line.statement.names).contains name := by
  rw [withoutImported_eq_filter, imported_script]
  refine List.filter_congr fun name _ => ?_
  congr 1
  rw [Bool.eq_iff_iff, List.contains_iff_mem, List.contains_iff_mem]
  simp only [Statement.names, List.mem_append, List.mem_flatMap]
  constructor
  · rintro (⟨line, member, own⟩ | ⟨line, member, own⟩)
    · exact ⟨line, member, .inl own⟩
    · exact ⟨line, member, .inr own⟩
  · rintro ⟨line, member, own | own⟩
    · exact .inl ⟨line, member, own⟩
    · exact .inr ⟨line, member, own⟩

example : withoutImported
    "import D, \x7b type from as x \x7d from 'm'\nexport * as from from 'n'".toList
    ["D", "from", "x", "m", "as"] = ["m", "as"] := by
  decide +kernel

end ImportSupply.Binding
