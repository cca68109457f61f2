import ImportSupply.Proofs.Literal.Scanner

/-!
# The transitions of a script scanner

What one step of a scan can do, as a relation with a rule for each kind of step:

* **well-formed stacks** — comments, strings and templates open only on executable code, and an
  interpolation opens only on the template around it (`WellFormed`);
* **totality** — from a well-formed stack every character takes some transition
  (`exists_transition`), and the scanner takes it (`Transition.step_eq`);
* **preservation** — a transition keeps the stack well-formed (`Transition.wellFormed`).

Facts about whole scans are proved from these rules and do not open `Scanner.step` again.
-/

namespace ImportSupply.Literal

/-- Stacks of executable code: plain code at the bottom, and above it interpolations, each on its
template. -/
inductive Executable : List Mode → Prop
  | code : Executable [.code]
  | interpolation (depth : Nat) {below : List Mode} :
      Executable below → Executable (.interpolation depth :: .template :: below)

/-- Stacks a scan can reach: executable code, with at most one literal or comment open on it. -/
inductive WellFormed : List Mode → Prop
  | executable {stack : List Mode} : Executable stack → WellFormed stack
  | lineComment {below : List Mode} : Executable below → WellFormed (.lineComment :: below)
  | blockComment {below : List Mode} : Executable below → WellFormed (.blockComment :: below)
  | quoted (quote : Quote) {below : List Mode} :
      Executable below → WellFormed (.quoted quote :: below)
  | template {below : List Mode} : Executable below → WellFormed (.template :: below)

theorem WellFormed.start : WellFormed Scanner.start.stack :=
  .executable .code

/-- Whether a mode is executable code. -/
def Mode.isExecutable : Mode → Bool
  | .code | .interpolation _ => true
  | _ => false

/-- Below a comment, a string or a template lies executable code. -/
theorem WellFormed.executable_below {mode : Mode} {below : List Mode}
    (formed : WellFormed (mode :: below)) (closed : mode.isExecutable = false) :
    Executable below := by
  cases formed with
  | executable isCode => cases isCode <;> simp [Mode.isExecutable] at closed
  | lineComment isCode | blockComment isCode | quoted _ isCode | template isCode => exact isCode

/-- Below an interpolation lies its template, and below that executable code. -/
theorem WellFormed.interpolation_below {depth : Nat} {below : List Mode}
    (formed : WellFormed (.interpolation depth :: below)) :
    ∃ outer, below = .template :: outer ∧ Executable outer := by
  cases formed with
  | executable isCode =>
    cases isCode with
    | interpolation _ isCode => exact ⟨_, rfl, isCode⟩

/-- A character that executable code passes over: it opens no literal and no comment, and in an
interpolation it is no brace. -/
structure Passive (stack : List Mode) (c : Char) (rest : List Char) : Prop where
  lineComment : ¬ (c = '/' ∧ rest.head? = some '/')
  blockComment : ¬ (c = '/' ∧ rest.head? = some '*')
  single : c ≠ '\''
  double : c ≠ '"'
  backtick : c ≠ '\x60'
  brace : stack ≠ [.code] → c ≠ '{' ∧ c ≠ '}'

/-- The line ends that a backslash in a plain string keeps. -/
def isLineEnd (c : Char) : Bool :=
  c == '\n' || c == '\r'

/-- One step of a scan: the state before a character, the character, what follows it, its role and
the state behind it. -/
inductive Transition : Scanner → Char → List Char → Role → Scanner → Prop
  | decided (stack : List Mode) (role : Role) (pending : List Role) (c : Char) (rest : List Char) :
      Transition ⟨stack, role :: pending⟩ c rest role ⟨stack, pending⟩
  | lineCommentEnds (below : List Mode) (rest : List Char) :
      Transition ⟨.lineComment :: below, []⟩ '\n' rest .hidden ⟨below, []⟩
  | inLineComment (below : List Mode) {c : Char} (rest : List Char) (inside : c ≠ '\n') :
      Transition ⟨.lineComment :: below, []⟩ c rest .hidden ⟨.lineComment :: below, []⟩
  | blockCommentEnds (below : List Mode) {rest : List Char} (slash : rest.head? = some '/') :
      Transition ⟨.blockComment :: below, []⟩ '*' rest .hidden ⟨below, [.hidden]⟩
  | inBlockComment (below : List Mode) {c : Char} {rest : List Char}
      (inside : ¬ (c = '*' ∧ rest.head? = some '/')) :
      Transition ⟨.blockComment :: below, []⟩ c rest .hidden ⟨.blockComment :: below, []⟩
  | longContinuation (quote : Quote) (below : List Mode) (rest : List Char) :
      Transition ⟨.quoted quote :: below, []⟩ '\\' ('\r' :: '\n' :: rest) .continuation
        ⟨.quoted quote :: below, [.continuation, .continuation]⟩
  | continuation (quote : Quote) (below : List Mode) {lineEnd : Char} {rest : List Char}
      (isEnd : isLineEnd lineEnd = true) (short : ¬ (lineEnd = '\r' ∧ rest.head? = some '\n')) :
      Transition ⟨.quoted quote :: below, []⟩ '\\' (lineEnd :: rest) .continuation
        ⟨.quoted quote :: below, [.continuation]⟩
  | stringEscape (quote : Quote) (below : List Mode) {rest : List Char}
      (noEnd : rest.head?.any isLineEnd = false) :
      Transition ⟨.quoted quote :: below, []⟩ '\\' rest .hidden
        ⟨.quoted quote :: below, [.hidden]⟩
  | stringEnds (quote : Quote) (below : List Mode) (rest : List Char) :
      Transition ⟨.quoted quote :: below, []⟩ quote.char rest .delimiter ⟨below, []⟩
  | stringBreaks (quote : Quote) (below : List Mode) (rest : List Char) :
      Transition ⟨.quoted quote :: below, []⟩ '\n' rest .hidden ⟨below, []⟩
  | inString (quote : Quote) (below : List Mode) {c : Char} (rest : List Char)
      (backslash : c ≠ '\\') (closing : c ≠ quote.char) (lineFeed : c ≠ '\n') :
      Transition ⟨.quoted quote :: below, []⟩ c rest .hidden ⟨.quoted quote :: below, []⟩
  | templateEscape (below : List Mode) (rest : List Char) :
      Transition ⟨.template :: below, []⟩ '\\' rest .hidden ⟨.template :: below, [.hidden]⟩
  | templateEnds (below : List Mode) (rest : List Char) :
      Transition ⟨.template :: below, []⟩ '\x60' rest .delimiter ⟨below, []⟩
  | interpolationOpens (below : List Mode) {rest : List Char} (brace : rest.head? = some '{') :
      Transition ⟨.template :: below, []⟩ '$' rest .delimiter
        ⟨.interpolation 0 :: .template :: below, [.delimiter]⟩
  | inTemplate (below : List Mode) {c : Char} {rest : List Char} (backslash : c ≠ '\\')
      (backtick : c ≠ '\x60') (inside : ¬ (c = '$' ∧ rest.head? = some '{')) :
      Transition ⟨.template :: below, []⟩ c rest .hidden ⟨.template :: below, []⟩
  | lineCommentOpens {stack : List Mode} (isCode : Executable stack) {rest : List Char}
      (slash : rest.head? = some '/') :
      Transition ⟨stack, []⟩ '/' rest .hidden ⟨.lineComment :: stack, [.hidden]⟩
  | blockCommentOpens {stack : List Mode} (isCode : Executable stack) {rest : List Char}
      (star : rest.head? = some '*') :
      Transition ⟨stack, []⟩ '/' rest .hidden ⟨.blockComment :: stack, [.hidden]⟩
  | stringOpens (quote : Quote) {stack : List Mode} (isCode : Executable stack) (rest : List Char) :
      Transition ⟨stack, []⟩ quote.char rest .delimiter ⟨.quoted quote :: stack, []⟩
  | templateOpens {stack : List Mode} (isCode : Executable stack) (rest : List Char) :
      Transition ⟨stack, []⟩ '\x60' rest .delimiter ⟨.template :: stack, []⟩
  | braceOpens (depth : Nat) (below : List Mode) (rest : List Char) :
      Transition ⟨.interpolation depth :: below, []⟩ '{' rest .code
        ⟨.interpolation (depth + 1) :: below, []⟩
  | interpolationCloses (below : List Mode) (rest : List Char) :
      Transition ⟨.interpolation 0 :: below, []⟩ '}' rest .delimiter ⟨below, []⟩
  | braceCloses (depth : Nat) (below : List Mode) (rest : List Char) :
      Transition ⟨.interpolation (depth + 1) :: below, []⟩ '}' rest .code
        ⟨.interpolation depth :: below, []⟩
  | inCode {stack : List Mode} (isCode : Executable stack) {c : Char} {rest : List Char}
      (passive : Passive stack c rest) :
      Transition ⟨stack, []⟩ c rest .code ⟨stack, []⟩

theorem Executable.step_eq_stepCode {stack : List Mode} (isCode : Executable stack) (c : Char)
    (rest : List Char) : Scanner.step ⟨stack, []⟩ c rest = Scanner.stepCode stack c rest := by
  cases isCode <;> rfl

/-- The scanner takes every transition. -/
theorem Transition.step_eq {scanner next : Scanner} {c : Char} {rest : List Char} {role : Role}
    (taken : Transition scanner c rest role next) : scanner.step c rest = (role, next) := by
  cases taken with
  | decided => rfl
  | lineCommentEnds => rfl
  | inLineComment below rest inside => simp [Scanner.step, Mode.top, inside]
  | blockCommentEnds below slash => simp [Scanner.step, Mode.top, slash]
  | inBlockComment below inside => simp [Scanner.step, Mode.top, inside]
  | longContinuation => rfl
  | @continuation quote below lineEnd rest isEnd short =>
      simp only [Scanner.step, Mode.top, List.headD_cons, Scanner.stepQuoted, if_true]
      split <;> simp_all [isLineEnd]
  | stringEscape quote below noEnd =>
      simp only [Scanner.step, Mode.top, List.headD_cons, Scanner.stepQuoted, if_true]
      split <;> simp_all [isLineEnd]
  | stringEnds quote below rest => cases quote <;> rfl
  | stringBreaks quote below rest => cases quote <;> rfl
  | inString quote below rest backslash closing lineFeed =>
      simp [Scanner.step, Mode.top, Scanner.stepQuoted, backslash, closing, lineFeed]
  | templateEscape => rfl
  | templateEnds => rfl
  | interpolationOpens below brace =>
      simp [Scanner.step, Mode.top, Scanner.stepTemplate, brace]
  | inTemplate below backslash backtick inside =>
      simp only [Scanner.step, Mode.top, List.headD_cons, Scanner.stepTemplate]
      split <;> simp_all
  | lineCommentOpens isCode slash =>
      simp [isCode.step_eq_stepCode, Scanner.stepCode, slash]
  | blockCommentOpens isCode star =>
      simp [isCode.step_eq_stepCode, Scanner.stepCode, star]
  | stringOpens quote isCode rest =>
      rw [isCode.step_eq_stepCode]
      cases quote <;> rfl
  | templateOpens isCode rest =>
      rw [isCode.step_eq_stepCode]
      rfl
  | braceOpens => rfl
  | interpolationCloses => rfl
  | braceCloses => rfl
  | inCode isCode passive =>
      -- a passive character falls through to the last rule for code
      obtain ⟨lineComment, blockComment, single, double, backtick, brace⟩ := passive
      rw [isCode.step_eq_stepCode]
      unfold Scanner.stepCode
      split <;> simp_all

theorem Executable.exists_transition {stack : List Mode} (isCode : Executable stack) (c : Char)
    (rest : List Char) : ∃ role next, Transition ⟨stack, []⟩ c rest role next := by
  by_cases lineComment : c = '/' ∧ rest.head? = some '/'
  · obtain ⟨rfl, slash⟩ := lineComment
    exact ⟨_, _, .lineCommentOpens isCode slash⟩
  by_cases blockComment : c = '/' ∧ rest.head? = some '*'
  · obtain ⟨rfl, star⟩ := blockComment
    exact ⟨_, _, .blockCommentOpens isCode star⟩
  by_cases single : c = '\''
  · subst single
    exact ⟨_, _, .stringOpens .single isCode rest⟩
  by_cases double : c = '"'
  · subst double
    exact ⟨_, _, .stringOpens .double isCode rest⟩
  by_cases backtick : c = '\x60'
  · subst backtick
    exact ⟨_, _, .templateOpens isCode rest⟩
  -- what is left opens nothing; only an interpolation counts its braces
  cases isCode with
  | code =>
      exact ⟨_, _, .inCode .code ⟨lineComment, blockComment, single, double, backtick, by simp⟩⟩
  | @interpolation depth below isCode =>
      by_cases opening : c = '{'
      · subst opening
        exact ⟨_, _, .braceOpens depth _ rest⟩
      by_cases closing : c = '}'
      · subst closing
        cases depth with
        | zero => exact ⟨_, _, .interpolationCloses _ rest⟩
        | succ depth => exact ⟨_, _, .braceCloses depth _ rest⟩
      exact ⟨_, _, .inCode (.interpolation depth isCode)
        ⟨lineComment, blockComment, single, double, backtick, fun _ => ⟨opening, closing⟩⟩⟩

theorem exists_transition_quoted (quote : Quote) (below : List Mode) (c : Char)
    (rest : List Char) : ∃ role next, Transition ⟨.quoted quote :: below, []⟩ c rest role next := by
  by_cases backslash : c = '\\'
  · subst backslash
    cases noEnd : rest.head?.any isLineEnd with
    | false => exact ⟨_, _, .stringEscape quote below noEnd⟩
    | true =>
        cases rest with
        | nil => simp at noEnd
        | cons lineEnd rest =>
            -- a carriage return with a line feed is one line end
            by_cases long : lineEnd = '\r' ∧ rest.head? = some '\n'
            · obtain ⟨rfl, lineFeed⟩ := long
              obtain ⟨rest, rfl⟩ := List.head?_eq_some_iff.mp lineFeed
              exact ⟨_, _, .longContinuation quote below rest⟩
            · exact ⟨_, _, .continuation quote below (by simpa using noEnd) long⟩
  by_cases closing : c = quote.char
  · subst closing
    exact ⟨_, _, .stringEnds quote below rest⟩
  by_cases lineFeed : c = '\n'
  · subst lineFeed
    exact ⟨_, _, .stringBreaks quote below rest⟩
  exact ⟨_, _, .inString quote below rest backslash closing lineFeed⟩

theorem exists_transition_template (below : List Mode) (c : Char) (rest : List Char) :
    ∃ role next, Transition ⟨.template :: below, []⟩ c rest role next := by
  by_cases backslash : c = '\\'
  · subst backslash
    exact ⟨_, _, .templateEscape below rest⟩
  by_cases backtick : c = '\x60'
  · subst backtick
    exact ⟨_, _, .templateEnds below rest⟩
  by_cases opening : c = '$' ∧ rest.head? = some '{'
  · obtain ⟨rfl, brace⟩ := opening
    exact ⟨_, _, .interpolationOpens below brace⟩
  exact ⟨_, _, .inTemplate below backslash backtick opening⟩

/-- From a well-formed stack every character takes a transition. -/
theorem WellFormed.exists_transition {stack : List Mode} (formed : WellFormed stack)
    (pending : List Role) (c : Char) (rest : List Char) :
    ∃ role next, Transition ⟨stack, pending⟩ c rest role next := by
  cases pending with
  | cons role pending => exact ⟨_, _, .decided stack role pending c rest⟩
  | nil =>
    cases formed with
    | executable isCode => exact isCode.exists_transition c rest
    | @lineComment below isCode =>
        by_cases lineFeed : c = '\n'
        · subst lineFeed
          exact ⟨_, _, .lineCommentEnds below rest⟩
        · exact ⟨_, _, .inLineComment below rest lineFeed⟩
    | @blockComment below isCode =>
        by_cases closing : c = '*' ∧ rest.head? = some '/'
        · obtain ⟨rfl, slash⟩ := closing
          exact ⟨_, _, .blockCommentEnds below slash⟩
        · exact ⟨_, _, .inBlockComment below closing⟩
    | quoted quote isCode => exact exists_transition_quoted quote _ c rest
    | template isCode => exact exists_transition_template _ c rest

/-- A transition keeps the stack well-formed. -/
theorem Transition.wellFormed {scanner next : Scanner} {c : Char} {rest : List Char} {role : Role}
    (taken : Transition scanner c rest role next) (formed : WellFormed scanner.stack) :
    WellFormed next.stack := by
  cases taken with
  | decided | inLineComment | inBlockComment | longContinuation | continuation | stringEscape
  | inString | templateEscape | inTemplate | inCode => exact formed
  | lineCommentEnds | blockCommentEnds | stringEnds | stringBreaks | templateEnds =>
      exact .executable (formed.executable_below rfl)
  | interpolationOpens below brace =>
      exact .executable (.interpolation 0 (formed.executable_below rfl))
  | lineCommentOpens isCode slash => exact .lineComment isCode
  | blockCommentOpens isCode star => exact .blockComment isCode
  | stringOpens quote isCode rest => exact .quoted quote isCode
  | templateOpens isCode rest => exact .template isCode
  | braceOpens depth below rest =>
      obtain ⟨outer, rfl, isCode⟩ := formed.interpolation_below
      exact .executable (.interpolation (depth + 1) isCode)
  | interpolationCloses below rest =>
      -- behind its brace an interpolation is back in its template
      obtain ⟨outer, rfl, isCode⟩ := formed.interpolation_below
      exact .template isCode
  | braceCloses depth below rest =>
      obtain ⟨outer, rfl, isCode⟩ := formed.interpolation_below
      exact .executable (.interpolation depth isCode)

/-! ## What a masked text shows -/

theorem blank_eq_self_or_space (c : Char) : blank c = c ∨ blank c = ' ' := by
  unfold blank
  split
  · exact .inl rfl
  · exact .inr rfl

theorem Role.display_eq_self_or_space (role : Role) (c : Char) :
    role.display c = c ∨ role.display c = ' ' := by
  unfold Role.display
  split
  · exact blank_eq_self_or_space c
  · exact .inl rfl

theorem Transition.shown_cons {scanner next : Scanner} {c : Char} {rest : List Char} {role : Role}
    (taken : Transition scanner c rest role next) :
    scanner.shown (c :: rest) = role.display c :: next.shown rest := by
  rw [Scanner.shown_cons, taken.step_eq]

/-- Masking invents no character but the space, so what a masked text shows first was first. -/
theorem Scanner.head?_of_head?_shown {scanner : Scanner} {text : List Char} {c : Char}
    (shows : (scanner.shown text).head? = some c) (visible : c ≠ ' ') : text.head? = some c := by
  cases text with
  | nil => simp at shows
  | cons d rest =>
    rw [Scanner.shown_cons, List.head?_cons, Option.some.injEq] at shows
    rcases Role.display_eq_self_or_space (scanner.step d rest).1 d with same | space
    · rw [List.head?_cons, ← shows, same]
    · exact absurd (shows.symm.trans space) visible

end ImportSupply.Literal
