import ImportSupply.Proofs.Literal.Transition
import ImportSupply.Proofs.Use.Words

/-!
# What a masked text shows of which character

A masked text shows one character for each of the script, in the state that the scan has reached
there (`Scanner.behind`). What it shows is one of three (`Transition.shown_cases`):

* **code** — the scan stands in executable code, and the character shows as it is;
* **an opening** — the `$` of static template text that a brace follows;
* **a separator** — everything else of a literal or a comment: blanks, quotes, backticks, braces and
  the line ends that a backslash hides. No name goes through one of them.

Right before an opening stands a separator (`isSeparator_of_opens`), and so does right behind it.
-/

namespace ImportSupply.Literal

namespace Scanner

/-- What shows behind a text is what the state reached there shows. -/
theorem exists_shown_append (scanner : Scanner) (front back : List Char) :
    ∃ shown, shown.length = front.length ∧
      scanner.shown (front ++ back) = shown ++ (scanner.behind front back).shown back := by
  induction front generalizing scanner with
  | nil => exact ⟨[], rfl, rfl⟩
  | cons c front ih =>
    obtain ⟨shown, long, shows⟩ := ih (scanner.step c (front ++ back)).2
    refine ⟨(scanner.step c (front ++ back)).1.display c :: shown, by simp [long], ?_⟩
    rw [List.cons_append, shown_cons, shows, behind, List.cons_append]

end Scanner

/-! ## What the scan expects -/

/-- What holds of a scan before the rest of its text: the stack is well-formed, and the characters
whose roles are decided show as separators. -/
structure Expectant (scanner : Scanner) (rest : List Char) : Prop where
  formed : WellFormed scanner.stack
  separate : ∀ pair ∈ scanner.pending.zip rest, Word.isSeparator (pair.1.display pair.2) = true

theorem isSeparator_blank (c : Char) : Word.isSeparator (blank c) = true := by
  unfold blank
  split
  next lineEnd => rcases lineEnd with rfl | rfl <;> decide
  next => decide

theorem isSeparator_hidden (c : Char) : Word.isSeparator (Role.display .hidden c) = true := by
  rw [Role.display, if_pos rfl]
  exact isSeparator_blank c

theorem Expectant.start (script : List Char) : Expectant Scanner.start script :=
  ⟨.start, by simp [Scanner.start]⟩

theorem Expectant.of_pending_eq_nil {stack : List Mode} (formed : WellFormed stack)
    (rest : List Char) : Expectant ⟨stack, []⟩ rest :=
  ⟨formed, by simp⟩

theorem Expectant.of_hidden {stack : List Mode} (formed : WellFormed stack) (rest : List Char) :
    Expectant ⟨stack, [.hidden]⟩ rest := by
  refine ⟨formed, ?_⟩
  cases rest with
  | nil => simp
  | cons c rest => simpa using isSeparator_hidden c

theorem Transition.expectant {scanner next : Scanner} {c : Char} {rest : List Char} {role : Role}
    (taken : Transition scanner c rest role next) (expectant : Expectant scanner (c :: rest)) :
    Expectant next rest := by
  have formed := taken.wellFormed expectant.formed
  -- Decided in advance are line continuations, the brace of an interpolation and what is hidden.
  cases taken with
  | decided stack role pending c rest =>
    refine ⟨formed, fun pair member => expectant.separate pair ?_⟩
    rw [List.zip_cons_cons]
    exact List.mem_cons_of_mem _ member
  | longContinuation =>
    refine ⟨formed, ?_⟩
    simp only [List.zip_cons_cons, List.forall_mem_cons]
    exact ⟨by decide, by decide, by simp⟩
  | continuation quote below isEnd short =>
    refine ⟨formed, ?_⟩
    simp only [isLineEnd, Bool.or_eq_true, beq_iff_eq] at isEnd
    rcases isEnd with rfl | rfl
    · simpa using (by decide : Word.isSeparator (Role.display .continuation '\n') = true)
    · simpa using (by decide : Word.isSeparator (Role.display .continuation '\r') = true)
  | interpolationOpens below brace =>
    obtain ⟨rest, rfl⟩ := List.head?_eq_some_iff.mp brace
    refine ⟨formed, ?_⟩
    simpa using (by decide : Word.isSeparator (Role.display .delimiter '{') = true)
  | stringEscape | blockCommentEnds | templateEscape | lineCommentOpens | blockCommentOpens =>
    exact .of_hidden formed _
  | lineCommentEnds | inLineComment | inBlockComment | stringEnds | stringBreaks | inString
  | templateEnds | inTemplate | stringOpens | templateOpens | braceOpens | interpolationCloses
  | braceCloses | inCode => exact .of_pending_eq_nil formed _

/-- A scan of a script stays so. -/
theorem Expectant.behind {scanner : Scanner} {front back : List Char}
    (expectant : Expectant scanner (front ++ back)) :
    Expectant (scanner.behind front back) back := by
  induction front generalizing scanner with
  | nil => exact expectant
  | cons c front ih =>
    obtain ⟨role, next, taken⟩ :=
      expectant.formed.exists_transition scanner.pending c (front ++ back)
    rw [Scanner.behind, taken.step_eq]
    exact ih (taken.expectant expectant)

/-! ## What shows -/

/-- A character that a scan reads as executable code. -/
structure IsCode (scanner : Scanner) (c : Char) (rest : List Char) : Prop where
  settled : scanner.pending = []
  executable : (Mode.top scanner.stack).isExecutable = true
  role : (scanner.step c rest).1 = .code

/-- A character that opens an interpolation in static template text. -/
structure Opens (scanner : Scanner) (c : Char) (rest : List Char) : Prop where
  settled : scanner.pending = []
  template : Mode.top scanner.stack = .template
  dollar : c = '$'
  brace : rest.head? = some '{'

theorem Executable.isExecutable_top {stack : List Mode} (isCode : Executable stack) :
    (Mode.top stack).isExecutable = true := by
  cases isCode <;> rfl

theorem Executable.top_ne_template {stack : List Mode} (isCode : Executable stack) :
    Mode.top stack ≠ .template := by
  intro same
  have executable := isCode.isExecutable_top
  rw [same] at executable
  cases executable

/-- A character shows as code, as an opening or as a separator. -/
theorem Transition.shown_cases {scanner next : Scanner} {c : Char} {rest : List Char} {role : Role}
    (taken : Transition scanner c rest role next) (expectant : Expectant scanner (c :: rest)) :
    IsCode scanner c rest ∨ Opens scanner c rest ∨ Word.isSeparator (role.display c) = true := by
  have step := taken.step_eq
  cases taken with
  | decided stack role pending c rest =>
    refine .inr (.inr (expectant.separate (role, c) ?_))
    rw [List.zip_cons_cons]
    exact List.mem_cons_self
  | lineCommentEnds | inLineComment | blockCommentEnds | inBlockComment | stringEscape
  | stringBreaks | inString | templateEscape | inTemplate | lineCommentOpens | blockCommentOpens =>
    exact .inr (.inr (isSeparator_hidden _))
  | longContinuation | continuation | templateEnds | templateOpens | interpolationCloses =>
    exact .inr (.inr (by decide))
  | stringEnds quote | stringOpens quote =>
    refine .inr (.inr ?_)
    cases quote <;> decide
  | interpolationOpens below brace => exact .inr (.inl ⟨rfl, rfl, rfl, brace⟩)
  | braceOpens | braceCloses => exact .inl ⟨rfl, rfl, rfl⟩
  | inCode isCode passive => exact .inl ⟨rfl, isCode.isExecutable_top, by rw [step]⟩

/-- Behind code no interpolation opens. -/
theorem IsCode.not_opens {scanner next : Scanner} {c d : Char} {rest more : List Char}
    {role : Role} (isCode : IsCode scanner c rest) (taken : Transition scanner c rest role next) :
    ¬Opens next d more := by
  intro opens
  have role := isCode.role
  rw [taken.step_eq] at role
  have settled := isCode.settled
  cases taken with
  | decided => cases settled
  | braceOpens | braceCloses => cases opens.template
  | inCode executable passive => exact executable.top_ne_template opens.template
  | _ => cases role

/-- An opening is followed by its own brace. -/
theorem Opens.role_eq {scanner next : Scanner} {c : Char} {rest : List Char} {role : Role}
    (opens : Opens scanner c rest) (taken : Transition scanner c rest role next) :
    role = .delimiter ∧ next.pending = [.delimiter] := by
  obtain ⟨stack, pending⟩ := scanner
  obtain ⟨rfl, template, rfl, brace⟩ := opens
  have step := taken.step_eq
  simp only [Scanner.step, template, Scanner.stepTemplate, brace] at step
  obtain ⟨rfl, rfl⟩ := Prod.mk.inj step
  exact ⟨rfl, rfl⟩

/-- Right before an opening something separates: a backtick, a blank or a closing brace. -/
theorem Transition.isSeparator_of_opens {scanner next : Scanner} {c d : Char}
    {rest more : List Char} {role : Role} (taken : Transition scanner c rest role next)
    (expectant : Expectant scanner (c :: rest)) (opens : Opens next d more) :
    Word.isSeparator (role.display c) = true := by
  rcases taken.shown_cases expectant with isCode | opening | separator
  · exact absurd opens (isCode.not_opens taken)
  · have pending := (opening.role_eq taken).2
    rw [opens.settled] at pending
    cases pending
  · exact separator

end ImportSupply.Literal
