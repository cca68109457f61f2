import ImportSupply.Proofs.Binding.DeclarationSyntax
import ImportSupply.Proofs.Pattern.Finding

/-!
# Texts that declarations leave behind

A search finds a declaration if no earlier match reaches over it. Behind a text that is *settled*
none does: its last mark is a closing brace or a quote, and every brace, square bracket and angle
bracket that is opened in it is closed in it (`Settled`). Layout and declarations are settled, and
so is what is put together from settled texts (`Settled.append`).
-/

namespace ImportSupply.Binding

open Literal Pattern

/-! ## Marks that are answered -/

/-- Wherever a mark stands in a text, what follows it in the text meets a condition. -/
def Answered (mark : Char) (answer : List Char → Prop) (text : List Char) : Prop :=
  ∀ left right, text = left ++ mark :: right → answer right

section

variable {mark : Char} {answer : List Char → Prop} {text other : List Char}

theorem answered_of_not_mem (absent : mark ∉ text) : Answered mark answer text := by
  rintro left right rfl
  exact absurd (by simp) absent

theorem Answered.append (grows : ∀ right more, answer right → answer (right ++ more))
    (first : Answered mark answer text) (second : Answered mark answer other) :
    Answered mark answer (text ++ other) := by
  intro left right same
  rcases List.append_eq_append_iff.mp same with ⟨more, -, rest⟩ | ⟨more, rfl, rest⟩
  · exact second more right rest
  · cases more with
    | nil => exact second [] right rest.symm
    | cons c more =>
      obtain ⟨rfl, rfl⟩ := List.cons.inj rest
      exact grows more other (first left more rfl)

/-- A mark whose answer follows it. -/
theorem answered_cons (own : answer text) (rest : Answered mark answer text) :
    Answered mark answer (mark :: text) := by
  intro left right same
  cases left with
  | nil =>
    obtain ⟨-, rfl⟩ := List.cons.inj same
    exact own
  | cons c left =>
    obtain ⟨-, rfl⟩ := List.cons.inj same
    exact rest left right rfl

theorem answered_cons_of_ne {c : Char} (other : c ≠ mark) (rest : Answered mark answer text) :
    Answered mark answer (c :: text) := by
  intro left right same
  cases left with
  | nil => exact absurd (List.cons.inj same).1 other
  | cons d left =>
    obtain ⟨-, rfl⟩ := List.cons.inj same
    exact rest left right rfl

end

theorem closesParameters_append (text more : List Char) (closes : closesParameters text = true) :
    closesParameters (text ++ more) = true := by
  induction text with
  | nil => cases closes
  | cons c text ih =>
    rw [closesParameters, Bool.or_eq_true, Bool.or_eq_true, Bool.and_eq_true] at closes
    rw [List.cons_append, closesParameters, Bool.or_eq_true, Bool.or_eq_true, Bool.and_eq_true]
    rcases closes with (semicolon | ⟨bracket, equals⟩) | closes
    · exact .inl (.inl semicolon)
    · refine .inl (.inr ⟨bracket, ?_⟩)
      rw [beq_iff_eq, List.head?_eq_some_iff] at equals ⊢
      obtain ⟨rest, dropped⟩ := equals
      refine ⟨rest ++ more, ?_⟩
      rw [List.dropWhile_append, dropped]
      rfl
    · exact .inr (ih closes)

theorem closesParameters_of_equals (left : List Char) {pad : List Char}
    (blank : ∀ c ∈ pad, Text.isBlank c = true) (right : List Char) :
    closesParameters (left ++ '>' :: (pad ++ '=' :: right)) = true := by
  induction left with
  | nil =>
    have dropped : (pad ++ '=' :: right).dropWhile Text.isBlank = '=' :: right :=
      Text.dropWhile_append_run blank rfl
    rw [List.nil_append, closesParameters, dropped]
    rfl
  | cons c left ih => rw [List.cons_append, closesParameters, ih, Bool.or_true]

theorem exists_append_of_parametersStart {place : Place Char} {found : Match Char}
    (starts : parametersStart.matchAt place = some found) :
    ∃ front right, place.rest = front ++ '<' :: right ∧ place.rest.drop found.length = right := by
  obtain ⟨piece, right, captures, text, spells, rfl⟩ := exists_spells_of_matchAt starts
  have parts : parametersStart =
      all ([wordEdge, Pattern.text "type", gap, name, blanks] ++ [Pattern.text "<"]) := rfl
  rw [parts, spells_all_append, spells_seq] at spells
  obtain ⟨front, _, _, _, -, bracket, rfl, -⟩ := spells
  obtain ⟨rfl, -⟩ := spells_text.mp bracket
  refine ⟨front, right, by simpa using text, ?_⟩
  rw [text, List.drop_left]

/-- A text in which every opened bracket is closed leaves no parameters open. -/
theorem leavesParametersOpen_eq_false {text : List Char}
    (answered : Answered '<' (closesParameters · = true) text) (before : Option Char) :
    leavesParametersOpen before text = false := by
  induction text generalizing before with
  | nil => rfl
  | cons c text ih =>
    have rest : Answered '<' (closesParameters · = true) text := by
      rintro left right rfl
      exact answered (c :: left) right rfl
    rw [leavesParametersOpen, ih rest, Bool.or_false]
    split
    next found starts =>
      obtain ⟨front, right, text_eq, dropped⟩ := exists_append_of_parametersStart starts
      rw [dropped, answered front right text_eq]
      rfl
    next => rfl

/-! ## Settled texts -/

/-- A text in which all brackets that are opened are closed. -/
structure Answers (text : List Char) : Prop where
  braces : Answered '{' ('}' ∈ ·) text
  squares : Answered '[' (']' ∈ ·) text
  angles : Answered '<' (closesParameters · = true) text

/-- The characters that open no bracket. -/
def isPlain (c : Char) : Bool :=
  !(c == '{' || c == '[' || c == '<')

/-- The marks that a declaration ends with. -/
def isFinal (c : Char) : Bool :=
  c == '}' || c == '\'' || c == '"'

structure Settled (text : List Char) : Prop extends Answers text where
  ends : (∀ c ∈ text, Text.isBlank c = true) ∨ ∃ front mark pad, text = front ++ mark :: pad ∧
    isFinal mark = true ∧ ∀ c ∈ pad, Text.isBlank c = true

section

variable {text other : List Char}

theorem Answers.append (first : Answers text) (second : Answers other) : Answers (text ++ other) :=
  ⟨first.braces.append (fun _ more => List.mem_append_left more) second.braces,
    first.squares.append (fun _ more => List.mem_append_left more) second.squares,
    first.angles.append closesParameters_append second.angles⟩

theorem not_mem_of_isPlain (plain : ∀ c ∈ text, isPlain c = true) {mark : Char}
    (opens : isPlain mark = false) : mark ∉ text := by
  intro member
  rw [plain mark member] at opens
  cases opens

theorem answers_of_plain (plain : ∀ c ∈ text, isPlain c = true) : Answers text :=
  ⟨answered_of_not_mem (not_mem_of_isPlain plain rfl),
    answered_of_not_mem (not_mem_of_isPlain plain rfl),
    answered_of_not_mem (not_mem_of_isPlain plain rfl)⟩

theorem isPlain_of_isBlank {c : Char} (blank : Text.isBlank c = true) : isPlain c = true := by
  by_contra opens
  simp only [isPlain, Bool.not_eq_true', Bool.not_eq_false, Bool.or_eq_true, beq_iff_eq] at opens
  rcases opens with (rfl | rfl) | rfl <;> exact absurd blank (by decide)

theorem isPlain_of_isTail {c : Char} (tail : Name.isTail c = true) : isPlain c = true := by
  by_contra opens
  simp only [isPlain, Bool.not_eq_true', Bool.not_eq_false, Bool.or_eq_true, beq_iff_eq] at opens
  rcases opens with (rfl | rfl) | rfl <;> exact absurd tail (by decide)

/-- Brackets around a text without brackets. -/
theorem answers_bracketed (bracket : Bracket) (plain : ∀ c ∈ text, isPlain c = true) :
    Answers (bracket.opening :: (text ++ [bracket.closing])) := by
  have inner : ∀ c ∈ text ++ [bracket.closing], isPlain c = true := by
    intro c member
    rcases List.mem_append.mp member with member | member
    · exact plain c member
    · rw [List.mem_singleton.mp member]
      cases bracket <;> rfl
  have own := answers_of_plain inner
  cases bracket with
  | curly =>
    exact ⟨answered_cons (by simp [Bracket.closing]) own.braces,
      answered_cons_of_ne (by decide) own.squares, answered_cons_of_ne (by decide) own.angles⟩
  | square =>
    exact ⟨answered_cons_of_ne (by decide) own.braces,
      answered_cons (by simp [Bracket.closing]) own.squares,
      answered_cons_of_ne (by decide) own.angles⟩

/-- The parameters of a type are closed by the bracket before the equals sign, wherever a bracket is
opened in them. -/
theorem answers_parameters {inner pad rest : List Char}
    (allowed : ∀ c ∈ inner, isParameterChar c = true)
    (blank : ∀ c ∈ pad, Text.isBlank c = true) (plain : ∀ c ∈ rest, isPlain c = true) :
    Answers ('<' :: (inner ++ '>' :: (pad ++ '=' :: rest))) := by
  have ending : ∀ c ∈ '>' :: (pad ++ '=' :: rest), isPlain c = true := by
    intro c member
    simp only [List.mem_cons, List.mem_append] at member
    rcases member with rfl | member | rfl | member
    · rfl
    · exact isPlain_of_isBlank (blank c member)
    · rfl
    · exact plain c member
  have absent {mark : Char} (other : isParameterChar mark = false) (opens : isPlain mark = false) :
      mark ∉ inner ++ '>' :: (pad ++ '=' :: rest) := by
    intro member
    rcases List.mem_append.mp member with member | member
    · rw [allowed mark member] at other
      cases other
    · exact not_mem_of_isPlain ending opens member
  refine ⟨answered_cons_of_ne (by decide) (answered_of_not_mem (absent (by decide) rfl)),
    answered_cons_of_ne (by decide) (answered_of_not_mem (absent (by decide) rfl)), ?_⟩
  -- An opening mark stands in front of the end of the parameters, which closes it; behind that end
  -- there is none.
  intro left right same
  rcases List.append_eq_append_iff.mp (show ('<' :: inner) ++ '>' :: (pad ++ '=' :: rest) = _
    from same) with ⟨more, -, wrong⟩ | ⟨more, -, behind⟩
  · exact absurd (by simp [wrong]) (@not_mem_of_isPlain _ ending '<' rfl)
  · cases more with
    | nil => exact absurd (List.cons.inj behind).1 (by decide)
    | cons c more =>
      rw [(List.cons.inj behind).2]
      exact closesParameters_of_equals more blank rest

theorem Settled.append (first : Settled text) (second : Settled other) :
    Settled (text ++ other) := by
  refine ⟨first.toAnswers.append second.toAnswers, ?_⟩
  have joined {pad : List Char} (blank : ∀ c ∈ pad, Text.isBlank c = true)
      (blank' : ∀ c ∈ other, Text.isBlank c = true) :
      ∀ c ∈ pad ++ other, Text.isBlank c = true := by
    intro c member
    rcases List.mem_append.mp member with member | member
    · exact blank c member
    · exact blank' c member
  rcases second.ends with blank | ⟨front, mark, pad, rfl, final, blank⟩
  · rcases first.ends with blank' | ⟨front, mark, pad, rfl, final, blank'⟩
    · exact .inl (joined blank' blank)
    · exact .inr ⟨front, mark, pad ++ other, by simp, final, joined blank' blank⟩
  · exact .inr ⟨text ++ front, mark, pad, by simp, final, blank⟩

theorem settled_of_isBlank (blank : ∀ c ∈ text, Text.isBlank c = true) : Settled text :=
  ⟨answers_of_plain fun c member => isPlain_of_isBlank (blank c member), .inl blank⟩

theorem Settled.flatMap {γ : Type} {parts : List γ} {part : γ → List Char}
    (settled : ∀ one ∈ parts, Settled (part one)) : Settled (parts.flatMap part) := by
  induction parts with
  | nil => exact settled_of_isBlank (by simp)
  | cons one parts ih =>
    rw [List.flatMap_cons]
    exact (settled one List.mem_cons_self).append
      (ih fun other member => settled other (List.mem_cons_of_mem one member))

end

/-! ## Declarations are settled -/

theorem Quoted.isPlain_of_mem_display {string : Quoted} {c : Char} (member : c ∈ string.display) :
    isPlain c = true := by
  simp only [Quoted.display, List.mem_cons, List.mem_append, List.not_mem_nil, or_false] at member
  rcases member with rfl | member | rfl
  · cases string.quote <;> rfl
  · rcases Quoted.mem_shownBody member with blank | rfl
    · exact isPlain_of_isBlank blank
    · rfl
  · cases string.quote <;> rfl

theorem isPlain_of_mem_layout {layout : Layout} {c : Char} (member : c ∈ layout.display) :
    isPlain c = true :=
  isPlain_of_isBlank (Layout.isBlank_of_mem_display member)

theorem Assigned.displayOf_segments (assigned : Assigned) :
    displayOf assigned.segments =
      assigned.before.display ++ '=' :: (assigned.after.display ++ assigned.value.display) := by
  simp [segments]

theorem Assigned.isPlain_behind (assigned : Assigned) :
    ∀ c ∈ assigned.after.display ++ assigned.value.display, isPlain c = true := by
  intro c member
  rcases List.mem_append.mp member with member | member
  · exact isPlain_of_mem_layout member
  · exact Quoted.isPlain_of_mem_display member

theorem Assigned.isPlain_of_mem {assigned : Assigned} {c : Char}
    (member : c ∈ displayOf assigned.segments) : isPlain c = true := by
  rw [assigned.displayOf_segments] at member
  rcases List.mem_append.mp member with member | member
  · exact isPlain_of_mem_layout member
  rcases List.mem_cons.mp member with rfl | member
  · rfl
  · exact assigned.isPlain_behind c member

/-- An assigned value ends with its quote. -/
theorem Assigned.exists_concat (assigned : Assigned) (front : List Char) :
    ∃ more mark, front ++ displayOf assigned.segments = more ++ [mark] ∧ isFinal mark = true := by
  refine ⟨front ++ (assigned.before.display ++ '=' :: (assigned.after.display ++
    assigned.value.quote.char :: assigned.value.shownBody)), assigned.value.quote.char, ?_, ?_⟩
  · simp [assigned.displayOf_segments, Quoted.display]
  · cases assigned.value.quote <;> rfl

namespace Ending

theorem answers (ending : Ending) : Answers (displayOf ending.segments) := by
  have layout (layout : Layout) : Answers layout.display :=
    answers_of_plain fun _ => isPlain_of_mem_layout
  have block (body : Layout) : Answers ('{' :: (body.display ++ ['}'])) :=
    answers_bracketed .curly fun _ => isPlain_of_mem_layout
  have mark {c : Char} (plain : isPlain c = true) : Answers [c] :=
    answers_of_plain (by simpa using plain)
  cases ending with
  | call before inside between body =>
    have whole := (layout before).append ((mark (c := '(') rfl).append ((layout inside).append
      ((mark (c := ')') rfl).append ((layout between).append (block body)))))
    simpa [segments] using whole
  | block before body => simpa [segments] using (layout before).append (block body)
  | value assigned => exact answers_of_plain fun _ => Assigned.isPlain_of_mem
  | parameters before inner allowed assigned =>
    have list := answers_parameters allowed
      (fun _ => @Layout.isBlank_of_mem_display assigned.before _) assigned.isPlain_behind
    simpa [segments, assigned.displayOf_segments] using (layout before).append list

theorem exists_concat (ending : Ending) (front : List Char) :
    ∃ more mark, front ++ displayOf ending.segments = more ++ [mark] ∧ isFinal mark = true := by
  cases ending with
  | call before inside between body =>
    exact ⟨front ++ (before.display ++ '(' :: (inside.display ++ ')' :: (between.display ++
      '{' :: body.display))), '}', by simp [segments], rfl⟩
  | block before body =>
    exact ⟨front ++ (before.display ++ '{' :: body.display), '}', by simp [segments], rfl⟩
  | value assigned => exact assigned.exists_concat front
  | parameters before inner allowed assigned =>
    have shown : front ++ displayOf (parameters before inner allowed assigned).segments =
        front ++ (before.display ++ '<' :: (inner ++ ['>'])) ++ displayOf assigned.segments := by
      simp [segments]
    rw [shown]
    exact assigned.exists_concat _

end Ending

theorem isBlank_or_isTail_of_mem_leads {leads : List (Lead × Spacing)} {c : Char}
    (member : c ∈ displayOf (leadSegments leads)) :
    Text.isBlank c = true ∨ Name.isTail c = true := by
  induction leads with
  | nil => cases member
  | cons lead leads ih =>
    have shown : displayOf (leadSegments (lead :: leads)) =
        lead.1.word.toList ++ (lead.2.display ++ displayOf (leadSegments leads)) := by
      simp [leadSegments]
    rw [shown] at member
    rcases List.mem_append.mp member with member | member
    · exact .inr (by simp [Name.isTail, Lead.isWord_of_mem c member])
    rcases List.mem_append.mp member with member | member
    · exact .inl (Spacing.isBlank_of_mem_display member)
    · exact ih member

theorem isPlain_of_mem_leads {leads : List (Lead × Spacing)} {c : Char}
    (member : c ∈ displayOf (leadSegments leads)) : isPlain c = true := by
  rcases isBlank_or_isTail_of_mem_leads member with blank | tail
  · exact isPlain_of_isBlank blank
  · exact isPlain_of_isTail tail

theorem Separator.isPlain_of_mem {separator : Separator} {c : Char}
    (member : c ∈ displayOf separator.segments) : isPlain c = true := by
  cases separator with
  | spaced spacing =>
    rw [segments, displayOf_spacing] at member
    exact isPlain_of_mem_layout member
  | starred before after =>
    simp only [segments, displayOf_append, displayOf_cons, displayOf_layout, Segment.display_code,
      List.mem_append, List.mem_singleton] at member
    rcases member with member | rfl | member
    · exact isPlain_of_mem_layout member
    · rfl
    · exact isPlain_of_mem_layout member

theorem Named.displayOf_heading (named : Named) :
    displayOf named.heading = named.word.toList ++ (displayOf named.separator.segments ++
      (named.bound.text ++ displayOf named.ending.segments)) := by
  simp [heading, wordSegment]

theorem Named.settled (named : Named) : Settled (displayOf named.segments) := by
  have opening : Answers (displayOf (leadSegments named.leads) ++ (named.word.toList ++
      (displayOf named.separator.segments ++ named.bound.text))) := by
    refine answers_of_plain fun c member => ?_
    simp only [List.mem_append] at member
    rcases member with member | member | member | member
    · exact isPlain_of_mem_leads member
    · exact isPlain_of_isTail (Kind.isTail_of_mem_words named.known c member)
    · exact Separator.isPlain_of_mem member
    · exact isPlain_of_isTail (named.bound.isTail_of_mem member)
  have shown : displayOf named.segments = displayOf (leadSegments named.leads) ++
      (named.word.toList ++ (displayOf named.separator.segments ++ named.bound.text)) ++
        displayOf named.ending.segments := by
    simp [segments, named.displayOf_heading]
  obtain ⟨more, mark, ends, final⟩ := named.ending.exists_concat
    (displayOf (leadSegments named.leads) ++
      (named.word.toList ++ (displayOf named.separator.segments ++ named.bound.text)))
  refine ⟨?_, .inr ⟨more, mark, [], shown.trans ends, final, by simp⟩⟩
  rw [shown]
  exact opening.append named.ending.answers

/-- The characters of one part of a destructuring pattern. -/
def isPartChar (c : Char) : Bool :=
  Text.isBlank c || Name.isTail c || [':', '=', '\'', '"', '\\', '.'].contains c

theorem isPlain_of_isPartChar {c : Char} (inside : isPartChar c = true) :
    isPlain c = true := by
  by_contra opens
  simp only [isPlain, Bool.not_eq_true', Bool.not_eq_false, Bool.or_eq_true, beq_iff_eq] at opens
  rcases opens with (rfl | rfl) | rfl <;> exact absurd inside (by decide)

theorem isPartChar_of_isBlank {c : Char} (blank : Text.isBlank c = true) :
    isPartChar c = true := by
  simp [isPartChar, blank]

theorem isPartChar_of_mem_layout {layout : Layout} {c : Char} (member : c ∈ layout.display) :
    isPartChar c = true :=
  isPartChar_of_isBlank (Layout.isBlank_of_mem_display member)

theorem Bindable.isPartChar_of_mem {bound : Bindable} {c : Char} (member : c ∈ bound.text) :
    isPartChar c = true := by
  simp [isPartChar, bound.isTail_of_mem member]

theorem Assigned.isPartChar_of_mem {assigned : Assigned} {c : Char}
    (member : c ∈ displayOf assigned.segments) : isPartChar c = true := by
  rw [assigned.displayOf_segments] at member
  simp only [Quoted.display, List.mem_append, List.mem_cons, List.not_mem_nil, or_false] at member
  rcases member with member | rfl | member | rfl | member | rfl
  · exact isPartChar_of_mem_layout member
  · decide
  · exact isPartChar_of_mem_layout member
  · cases assigned.value.quote <;> decide
  · rcases Quoted.mem_shownBody member with blank | rfl
    · exact isPartChar_of_isBlank blank
    · decide
  · cases assigned.value.quote <;> decide

theorem Element.isPartChar_of_mem {element : Element} {c : Char}
    (member : c ∈ displayOf element.segments) : isPartChar c = true := by
  cases element with
  | single leading own renamed fallback trailing =>
    simp only [segments, displayOf_append, displayOf_cons, displayOf_layout,
      Bindable.display_segment, List.mem_append] at member
    rcases member with member | member | member | member | member
    · exact isPartChar_of_mem_layout member
    · exact Bindable.isPartChar_of_mem member
    · cases renamed with
      | none => cases member
      | some renamed =>
        simp only [renamedSegments, displayOf_append, displayOf_cons, displayOf_layout,
          displayOf_nil, Segment.display_code, Bindable.display_segment, List.mem_append,
          List.mem_singleton, List.append_nil] at member
        rcases member with member | rfl | member | member
        · exact isPartChar_of_mem_layout member
        · decide
        · exact isPartChar_of_mem_layout member
        · exact Bindable.isPartChar_of_mem member
    · cases fallback with
      | none => cases member
      | some assigned => exact Assigned.isPartChar_of_mem member
    · exact isPartChar_of_mem_layout member
  | rest leading between own trailing =>
    simp only [segments, displayOf_append, displayOf_cons, displayOf_layout,
      Segment.display_code, Bindable.display_segment, List.mem_append] at member
    rcases member with member | member | member | member | member
    · exact isPartChar_of_mem_layout member
    · exact (by decide : ∀ c ∈ "...".toList, isPartChar c = true) c member
    · exact isPartChar_of_mem_layout member
    · exact Bindable.isPartChar_of_mem member
    · exact isPartChar_of_mem_layout member

namespace Destructured

/-- What the parts of a pattern show, with commas between them. -/
def bodyText (destructured : Destructured) : List Char :=
  [','].intercalate (destructured.elements.map fun element => displayOf element.segments)

theorem isPartChar_or_eq_of_mem {destructured : Destructured} {c : Char}
    (member : c ∈ destructured.bodyText) : isPartChar c = true ∨ c = ',' := by
  have inside : ∀ part ∈ destructured.elements.map fun element => displayOf element.segments,
      ∀ c ∈ part, (isPartChar c || c == ',') = true := by
    intro part listed c member
    obtain ⟨element, -, rfl⟩ := List.mem_map.mp listed
    simp [Element.isPartChar_of_mem member]
  simpa using Text.forall_mem_intercalate (by decide) inside c member

/-- A mark that no part of a pattern holds is not in the pattern, commas apart. -/
theorem not_mem_bodyText {destructured : Destructured} {mark : Char}
    (outside : isPartChar mark = false) (other : mark ≠ ',') : mark ∉ destructured.bodyText := by
  intro member
  rcases isPartChar_or_eq_of_mem member with inside | rfl
  · rw [outside] at inside
    cases inside
  · exact other rfl

theorem displayOf_heading (destructured : Destructured) :
    displayOf destructured.heading = destructured.word.toList ++ (destructured.between.display ++
      (destructured.bracket.opening :: (destructured.bodyText ++ [destructured.bracket.closing]) ++
        displayOf destructured.assigned.segments)) := by
  have body : displayOf destructured.body = destructured.bodyText := by
    rw [Destructured.body, displayOf_intercalate, List.map_map]
    rfl
  simp [heading, wordSegment, body]

theorem settled (destructured : Destructured) : Settled (displayOf destructured.segments) := by
  have opening : Answers (displayOf (leadSegments destructured.leads) ++
      (destructured.word.toList ++ destructured.between.display)) := by
    refine answers_of_plain fun c member => ?_
    simp only [List.mem_append] at member
    rcases member with member | member | member
    · exact isPlain_of_mem_leads member
    · exact isPlain_of_isTail (Kind.isTail_of_mem_words destructured.known c member)
    · exact isPlain_of_mem_layout member
  have plain : ∀ c ∈ destructured.bodyText, isPlain c = true := by
    intro c member
    rcases isPartChar_or_eq_of_mem member with inside | rfl
    · exact isPlain_of_isPartChar inside
    · rfl
  have pattern := answers_bracketed destructured.bracket plain
  have shown : displayOf destructured.segments = displayOf (leadSegments destructured.leads) ++
      (destructured.word.toList ++ destructured.between.display) ++
        (destructured.bracket.opening ::
          (destructured.bodyText ++ [destructured.bracket.closing])) ++
            displayOf destructured.assigned.segments := by
    simp [segments, destructured.displayOf_heading]
  obtain ⟨more, mark, ends, final⟩ := destructured.assigned.exists_concat
    (displayOf (leadSegments destructured.leads) ++
      (destructured.word.toList ++ destructured.between.display) ++
        (destructured.bracket.opening ::
          (destructured.bodyText ++ [destructured.bracket.closing])))
  -- the declaration ends with the quote of the value assigned to it
  refine ⟨?_, .inr ⟨more, mark, [], shown.trans ends, final, by simp⟩⟩
  rw [shown]
  exact (opening.append pattern).append (answers_of_plain fun _ => Assigned.isPlain_of_mem)

end Destructured

theorem DeclarationLine.settled (line : DeclarationLine) : Settled (displayOf line.segments) := by
  rw [segments, displayOf_append, displayOf_layout]
  refine Settled.append ?_ (settled_of_isBlank fun _ => Layout.isBlank_of_mem_display)
  cases line.declaration with
  | named declaration => exact declaration.settled
  | destructured declaration => exact declaration.settled

/-! ## Words in front of a keyword -/

theorem displayOf_leadSegments_concat (leads : List (Lead × Spacing)) (lead : Lead × Spacing) :
    displayOf (leadSegments (leads ++ [lead])) =
      displayOf (leadSegments leads) ++ (lead.1.word.toList ++ lead.2.display) := by
  simp [leadSegments]

theorem isFinal_iff {c : Char} : isFinal c = true ↔ c = '}' ∨ c = '\'' ∨ c = '"' := by
  rw [isFinal, Bool.or_eq_true, Bool.or_eq_true, beq_iff_eq, beq_iff_eq, beq_iff_eq, or_assoc]

/-- Behind a settled text and the words in front of a keyword there is no part of a word. -/
theorem Settled.getLast?_isTail {text : List Char} (settled : Settled text)
    (leads : List (Lead × Spacing)) :
    (text ++ displayOf (leadSegments leads)).getLast?.any Name.isTail = false := by
  rcases List.eq_nil_or_concat leads with rfl | ⟨leads, lead, rfl⟩
  · have shown : text ++ displayOf (leadSegments []) = text := List.append_nil text
    rw [shown]
    rcases settled.ends with blank | ⟨front, mark, pad, rfl, final, blank⟩
    · by_cases empty : text = []
      · rw [empty]
        rfl
      · exact @Text.getLast?_any_append _ [] text empty fun c member =>
          Name.isTail_eq_false_of_isBlank (blank c member)
    · refine Text.getLast?_any_append (by simp) fun c member => ?_
      rcases List.mem_cons.mp member with rfl | member
      · rcases isFinal_iff.mp final with rfl | rfl | rfl <;> decide
      · exact Name.isTail_eq_false_of_isBlank (blank c member)
  · rw [List.concat_eq_append, displayOf_leadSegments_concat, ← List.append_assoc,
      ← List.append_assoc]
    exact Text.getLast?_any_append lead.2.display_ne_nil fun c member =>
      Name.isTail_eq_false_of_isBlank (Spacing.isBlank_of_mem_display member)

theorem Kind.isSeparator_of_isBlank {kind : Kind} {c : Char} (blank : Text.isBlank c = true) :
    kind.isSeparator c = true := by
  cases kind <;> simp [isSeparator, blank]

/-- A settled text does not end with a word. -/
theorem Settled.lastWord_eq_nil {text : List Char} (settled : Settled text) (kind : Kind) :
    lastWord kind.isSeparator text = [] := by
  rcases settled.ends with blank | ⟨front, mark, pad, rfl, final, blank⟩
  · have dropped : text.reverse.dropWhile kind.isSeparator = [] :=
      List.dropWhile_eq_nil_iff.mpr fun c member =>
        Kind.isSeparator_of_isBlank (blank c (List.mem_reverse.mp member))
    rw [lastWord, dropped]
    rfl
  · have stops : (mark :: front.reverse).head?.any kind.isSeparator = false := by
      rcases isFinal_iff.mp final with rfl | rfl | rfl <;> cases kind <;> rfl
    have dropped : (front ++ mark :: pad).reverse.dropWhile kind.isSeparator =
        mark :: front.reverse := by
      have reversed : (front ++ mark :: pad).reverse = pad.reverse ++ mark :: front.reverse := by
        simp
      rw [reversed]
      exact Text.dropWhile_append_run
        (fun c member => Kind.isSeparator_of_isBlank (blank c (List.mem_reverse.mp member))) stops
    have outside : Text.isWord mark = false := by
      rcases isFinal_iff.mp final with rfl | rfl | rfl <;> decide
    rw [lastWord, dropped, List.takeWhile_cons_of_neg (by simp [outside])]
    rfl

/-- No word in front of a declaration is a keyword of its kind. -/
theorem Lead.ne_word {kind : Kind} {lead : Lead} (own : lead ∈ kind.leads) {word : String}
    (known : word ∈ kind.words) : word.toList ≠ lead.word.toList := by
  revert word
  revert lead
  cases kind <;> decide

/-- Behind a settled text and words that belong in front of it, a heading is not read as part of an
earlier declaration. -/
theorem Settled.isOpen_eq_false {text : List Char} (settled : Settled text) {kind : Kind}
    {leads : List (Lead × Spacing)} (ordered : (leads.map Prod.fst).Sublist kind.leads) :
    kind.isOpen (text ++ displayOf (leadSegments leads)) = false := by
  have closed : leavesParametersOpen none (text ++ displayOf (leadSegments leads)) = false :=
    leavesParametersOpen_eq_false (settled.angles.append closesParameters_append
      (answered_of_not_mem (not_mem_of_isPlain (fun _ => isPlain_of_mem_leads) rfl))) none
  rw [Kind.isOpen, closed, Bool.and_false, Bool.or_false, List.any_eq_false]
  intro word known
  rw [beq_iff_eq]
  rcases List.eq_nil_or_concat leads with rfl | ⟨leads, lead, rfl⟩
  · have shown : text ++ displayOf (leadSegments []) = text := List.append_nil text
    rw [shown, settled.lastWord_eq_nil]
    exact Kind.ne_nil_of_mem_words known
  · have own : lead.1 ∈ kind.leads := ordered.subset (by simp)
    have inside : ∀ c ∈ lead.1.word.toList, Text.isWord c = true := Lead.isWord_of_mem
    have outside : ∀ c ∈ lead.1.word.toList, kind.isSeparator c = false := fun c member =>
      Kind.isSeparator_eq_false_of_isTail (by simp [Name.isTail, inside c member])
    have nonempty : lead.1.word.toList ≠ [] := by cases lead.1 <;> decide
    rw [List.concat_eq_append, displayOf_leadSegments_concat, ← List.append_assoc,
      lastWord_append nonempty inside outside
        (fun c member => Kind.isSeparator_of_isBlank (Spacing.isBlank_of_mem_display member))
        (Kind.isWord_eq_false_of_edge (settled.getLast?_isTail leads))]
    exact Lead.ne_word own known

end ImportSupply.Binding
