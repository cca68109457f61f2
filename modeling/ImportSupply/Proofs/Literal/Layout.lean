import ImportSupply.Proofs.Literal.Grammar
import ImportSupply.Proofs.Literal.Segment
import ImportSupply.Proofs.Text.Classes

/-!
# Scripts in segments

Statements are written in segments: words and marks, the blanks and comments between them, and
closed strings. A segment carries what keeps it apart from its neighbours, so each is masked
independently of what follows (`Segment.mask_text_append`), and a script of segments shows the
displays of its segments (`mask_textOf`): words and marks as they are, layout as blanks, and of a
string the quotes.
-/

namespace ImportSupply.Literal

/-! ## Layout and strings -/

/-- What may stand between two words of a script. -/
inductive Filler where
  | blank (c : Char) (isBlank : Text.isBlank c = true)
  | lineComment (body : List Char) (oneLine : '\n' ∉ body)
  | blockComment (body : List Char) (unclosed : ¬ ['*', '/'] <:+: body)

/-- Blanks and comments in any order. -/
abbrev Layout := List Filler

/-- At least one blank or comment. -/
structure Spacing where
  layout : Layout
  nonempty : layout ≠ []

/-- A closed plain string. -/
structure Quoted where
  quote : Quote
  body : List StringItem
  fits : ∀ item ∈ body, item.fits quote = true

namespace Filler

def text : Filler → List Char
  | blank c _ => [c]
  | lineComment body _ => '/' :: '/' :: (body ++ ['\n'])
  | blockComment body _ => '/' :: '*' :: (body ++ ['*', '/'])

def display : Filler → List Char
  | blank c _ => [c]
  | lineComment body _ => ' ' :: ' ' :: (body.map Literal.blank ++ ['\n'])
  | blockComment body _ => ' ' :: ' ' :: (body.map Literal.blank ++ [' ', ' '])

end Filler

/-- What a masked script shows of the body of a string. -/
def Quoted.shownBody (string : Quoted) : List Char :=
  string.body.flatMap StringItem.display

namespace Quoted

def text (string : Quoted) : List Char :=
  string.quote.char :: (string.body.flatMap StringItem.text ++ [string.quote.char])

def display (string : Quoted) : List Char :=
  string.quote.char :: (string.shownBody ++ [string.quote.char])

end Quoted

/-! ## Segments -/

/-- A piece of a script that is masked on its own. -/
inductive Segment where
  /-- Words and marks without slashes, quotes and backticks. -/
  | code (text : List Char) (inert : ∀ c ∈ text, isInert c = true)
  /-- Part of the layout. -/
  | layout (filler : Filler)
  /-- A closed string. -/
  | quoted (string : Quoted)

namespace Segment

def text : Segment → List Char
  | code text _ => text
  | layout filler => filler.text
  | quoted string => string.text

def display : Segment → List Char
  | code text _ => text
  | layout filler => filler.display
  | quoted string => string.display

end Segment

/-- A script of segments. -/
def textOf (segments : List Segment) : List Char :=
  segments.flatMap Segment.text

/-- What a masked script of segments shows. -/
def displayOf (segments : List Segment) : List Char :=
  segments.flatMap Segment.display

namespace Layout

def segments (layout : Layout) : List Segment :=
  layout.map Segment.layout

/-- The blanks that a masked script shows of layout. -/
def display (layout : Layout) : List Char :=
  layout.flatMap Filler.display

end Layout

namespace Spacing

def segments (spacing : Spacing) : List Segment :=
  spacing.layout.segments

def display (spacing : Spacing) : List Char :=
  spacing.layout.display

end Spacing

@[simp]
theorem displayOf_nil : displayOf [] = [] :=
  rfl

@[simp]
theorem displayOf_cons (segment : Segment) (segments : List Segment) :
    displayOf (segment :: segments) = segment.display ++ displayOf segments :=
  List.flatMap_cons

@[simp]
theorem displayOf_append (segments others : List Segment) :
    displayOf (segments ++ others) = displayOf segments ++ displayOf others :=
  List.flatMap_append

@[simp]
theorem displayOf_layout (layout : Layout) : displayOf layout.segments = layout.display := by
  simp only [displayOf, Layout.segments, Layout.display, List.flatMap_map]
  rfl

@[simp]
theorem displayOf_spacing (spacing : Spacing) : displayOf spacing.segments = spacing.display :=
  displayOf_layout spacing.layout

@[simp]
theorem Segment.display_code (text : List Char) (inert : ∀ c ∈ text, isInert c = true) :
    (Segment.code text inert).display = text :=
  rfl

@[simp]
theorem Segment.display_quoted (string : Quoted) :
    (Segment.quoted string).display = string.display :=
  rfl

theorem displayOf_flatMap {γ : Type} (parts : List γ) (part : γ → List Segment) :
    displayOf (parts.flatMap part) = parts.flatMap fun one => displayOf (part one) :=
  List.flatMap_assoc

theorem displayOf_intercalate (separator : Segment) (parts : List (List Segment)) :
    displayOf ([separator].intercalate parts) =
      separator.display.intercalate (parts.map displayOf) := by
  induction parts with
  | nil => rfl
  | cons part parts ih =>
    cases parts with
    | nil => simp
    | cons next parts =>
      rw [List.intercalate_cons_cons, displayOf_append, displayOf_append, ih, List.map_cons,
        List.map_cons, List.map_cons, List.intercalate_cons_cons]
      simp

/-! ## Masking segments -/

theorem Filler.mask_text_append (filler : Filler) (rest : List Char) :
    mask (filler.text ++ rest) = filler.display ++ mask rest := by
  cases filler with
  | blank c isBlank =>
    refine mask_inert_append (fun d member => ?_) rest
    obtain rfl := List.mem_singleton.mp member
    exact isInert_of_accept (by decide) isBlank
  | lineComment body oneLine =>
    have body_shown := shown_lineComment_append oneLine [.code] rest
    have whole : (lineComment body oneLine).text ++ rest =
        '/' :: '/' :: (body ++ '\n' :: rest) := by
      simp [text]
    rw [mask_eq_shown, Scanner.start, whole, (Transition.lineCommentOpens .code rfl).shown_cons,
      (Transition.decided _ _ _ _ _).shown_cons, body_shown]
    simp [display, Role.display, Literal.blank, mask_eq_shown, Scanner.start]
  | blockComment body unclosed =>
    have body_shown := shown_blockComment_append unclosed [.code] rest
    have whole : (blockComment body unclosed).text ++ rest =
        '/' :: '*' :: (body ++ '*' :: '/' :: rest) := by
      simp [text]
    rw [mask_eq_shown, Scanner.start, whole, (Transition.blockCommentOpens .code rfl).shown_cons,
      (Transition.decided _ _ _ _ _).shown_cons, body_shown]
    simp [display, Role.display, Literal.blank, mask_eq_shown, Scanner.start]

theorem Quoted.mask_text_append (string : Quoted) (rest : List Char) :
    mask (string.text ++ rest) = string.display ++ mask rest := by
  have body_shown := shown_quoted_append string.fits [.code] rest
  have whole : string.text ++ rest = string.quote.char ::
      (string.body.flatMap StringItem.text ++ string.quote.char :: rest) := by
    simp [text]
  rw [mask_eq_shown, Scanner.start, whole, (Transition.stringOpens string.quote .code _).shown_cons,
    body_shown]
  simp [display, shownBody, Role.display, mask_eq_shown, Scanner.start]

/-- What follows a segment is masked on its own. -/
theorem Segment.mask_text_append (segment : Segment) (rest : List Char) :
    mask (segment.text ++ rest) = segment.display ++ mask rest := by
  cases segment with
  | code text inert => exact mask_inert_append inert rest
  | layout filler => exact filler.mask_text_append rest
  | quoted string => exact string.mask_text_append rest

/-- A script of segments is masked segment by segment. -/
theorem mask_textOf (segments : List Segment) : mask (textOf segments) = displayOf segments := by
  induction segments with
  | nil => exact mask_nil
  | cons segment segments ih =>
    rw [textOf, List.flatMap_cons, segment.mask_text_append, displayOf_cons, ← ih, textOf]

/-! ## What layout and strings show -/

theorem isBlank_blank (c : Char) : Text.isBlank (blank c) = true := by
  unfold blank
  split
  next lineEnd => rcases lineEnd with rfl | rfl <;> decide
  next => decide

theorem Layout.isBlank_of_mem_display {layout : Layout} {c : Char} (member : c ∈ layout.display) :
    Text.isBlank c = true := by
  obtain ⟨filler, -, member⟩ := List.mem_flatMap.mp member
  cases filler with
  | blank d isBlank =>
    rw [List.mem_singleton.mp member]
    exact isBlank
  | lineComment body _ | blockComment body _ =>
    simp only [Filler.display, List.mem_cons, List.mem_append, List.mem_map, List.not_mem_nil,
      or_false, or_self] at member
    rcases member with rfl | rfl | ⟨d, -, rfl⟩ | rfl
    · decide
    · decide
    · exact isBlank_blank d
    · decide

theorem Spacing.isBlank_of_mem_display {spacing : Spacing} {c : Char}
    (member : c ∈ spacing.display) : Text.isBlank c = true :=
  Layout.isBlank_of_mem_display member

theorem Spacing.display_ne_nil (spacing : Spacing) : spacing.display ≠ [] := by
  obtain ⟨filler, layout, cons⟩ := List.exists_cons_of_ne_nil spacing.nonempty
  rw [display, Layout.display, cons, List.flatMap_cons]
  cases filler <;> simp [Filler.display]

/-- Of the body of a string only blanks and the backslashes of continued lines show. -/
theorem Quoted.mem_shownBody {string : Quoted} {c : Char} (member : c ∈ string.shownBody) :
    Text.isBlank c = true ∨ c = '\\' := by
  obtain ⟨item, -, member⟩ := List.mem_flatMap.mp member
  cases item with
  | char d =>
    obtain rfl := List.mem_singleton.mp member
    exact .inl (isBlank_blank d)
  | escape d =>
    simp only [StringItem.display, StringItem.text, List.map_cons, List.map_nil, List.mem_cons,
      List.not_mem_nil, or_false] at member
    rcases member with rfl | rfl
    · exact .inl (isBlank_blank _)
    · exact .inl (isBlank_blank d)
  | continuation lineEnd =>
    rcases List.mem_cons.mp member with rfl | member
    · exact .inr rfl
    · have lineEnds : ∀ c ∈ lineEnd.text, Text.isBlank c = true := by
        cases lineEnd <;> decide
      exact .inl (lineEnds c member)

end ImportSupply.Literal
