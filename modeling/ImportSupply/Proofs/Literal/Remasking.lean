import ImportSupply.Proofs.Literal.Transition

/-!
# Masking a masked text

A second scan of a masked text shows it as it is. The two scans run side by side: where the first
stands in some state, the second stands in its *shadow*, in which no comment is open and no hidden
character is expected, since comments and escapes are spaces by then. Three things carry the
argument:

* **lookahead** — a masked text invents no character but the space, so the second scan opens
  nothing that the first did not;
* **kept characters** — delimiters and line continuations are shown, so the second scan opens and
  closes what the first did;
* **hidden characters** — in every mode the second scan passes over a space, and over a line end
  wherever the first can leave one hidden (`Coherent`).
-/

namespace ImportSupply.Literal

/-- A stack without the comment that is open on top of it. -/
def withoutComment : List Mode → List Mode
  | .lineComment :: below => below
  | .blockComment :: below => below
  | stack => stack

@[simp]
theorem Executable.withoutComment_eq {stack : List Mode} (isCode : Executable stack) :
    withoutComment stack = stack := by
  cases isCode <;> rfl

/-- The state in which a scan of the masked text stands where the scan of the text stands in a
given state. -/
def Scanner.shadow (scanner : Scanner) : Scanner :=
  ⟨withoutComment scanner.stack, scanner.pending.filter (· != .hidden)⟩

/-- What holds of a scan before the rest of its text: the stack is well-formed, a character is
expected to be hidden only on its own, and in a plain string only if it is no line feed. -/
structure Coherent (scanner : Scanner) (rest : List Char) : Prop where
  formed : WellFormed scanner.stack
  alone : .hidden ∈ scanner.pending → scanner.pending = [.hidden]
  inLine : .hidden ∈ scanner.pending → ∀ quote, scanner.stack.head? = some (.quoted quote) →
    rest.head? ≠ some '\n'

theorem Coherent.start (script : List Char) : Coherent Scanner.start script :=
  ⟨WellFormed.start, by simp [Scanner.start], by simp [Scanner.start]⟩

theorem Coherent.of_pending_eq_nil {stack : List Mode} (formed : WellFormed stack)
    (rest : List Char) : Coherent ⟨stack, []⟩ rest :=
  ⟨formed, by simp, by simp⟩

theorem Transition.coherent {scanner next : Scanner} {c : Char} {rest : List Char} {role : Role}
    (taken : Transition scanner c rest role next) (coherent : Coherent scanner (c :: rest)) :
    Coherent next rest := by
  have formed := taken.wellFormed coherent.formed
  cases taken with
  | decided stack role pending c rest =>
      -- a hidden character still to come would not have been alone
      refine ⟨formed, ?_, ?_⟩
      · intro hidden
        have alone := coherent.alone (List.mem_cons_of_mem _ hidden)
        simp_all
      · intro hidden
        have alone := coherent.alone (List.mem_cons_of_mem _ hidden)
        simp_all
  | stringEscape quote below noEnd =>
      refine ⟨formed, fun _ => rfl, fun _ _ _ lineFeed => ?_⟩
      simp [lineFeed, isLineEnd] at noEnd
  | blockCommentEnds below slash =>
      refine ⟨formed, fun _ => rfl, fun _ quote inString => ?_⟩
      -- a block comment stands on code, never in a string
      cases coherent.formed.executable_below rfl <;> simp at inString
  | templateEscape | lineCommentOpens | blockCommentOpens =>
      exact ⟨formed, fun _ => rfl, by simp⟩
  | longContinuation | continuation | interpolationOpens => exact ⟨formed, by simp, by simp⟩
  | lineCommentEnds | inLineComment | inBlockComment | stringEnds | stringBreaks | inString
  | templateEnds | inTemplate | stringOpens | templateOpens | braceOpens | interpolationCloses
  | braceCloses | inCode => exact .of_pending_eq_nil formed _

/-! ## Hidden characters -/

theorem blank_cases (c : Char) : blank c = '\n' ∧ c = '\n' ∨ blank c = '\r' ∨ blank c = ' ' := by
  unfold blank
  split
  next lineEnd => rcases lineEnd with rfl | rfl <;> simp
  next => exact .inr (.inr rfl)

/-- Executable code passes over what a hidden character leaves. -/
theorem passive_blank (stack : List Mode) (c : Char) (rest : List Char) :
    Passive stack (blank c) rest := by
  rcases blank_cases c with ⟨shown, -⟩ | shown | shown <;> rw [shown] <;>
    exact ⟨by simp, by simp, by simp, by simp, by simp, by simp⟩

theorem blank_blank (c : Char) : blank (blank c) = blank c := by
  rcases blank_cases c with ⟨shown, -⟩ | shown | shown <;> rw [shown] <;> rfl

theorem Role.display_blank (role : Role) (c : Char) : role.display (blank c) = blank c := by
  unfold Role.display
  split
  · exact blank_blank c
  · rfl

/-- Whatever is open, the second scan passes over what a hidden character leaves, except over a
line feed in a plain string. -/
theorem WellFormed.exists_transition_blank {stack : List Mode} (formed : WellFormed stack)
    (c : Char) (inLine : ∀ quote, stack.head? = some (.quoted quote) → c ≠ '\n')
    (rest : List Char) :
    ∃ again, Transition ⟨withoutComment stack, []⟩ (blank c) rest again
      ⟨withoutComment stack, []⟩ ∧ again.display (blank c) = blank c := by
  suffices passes : ∃ again, Transition ⟨withoutComment stack, []⟩ (blank c) rest again
      ⟨withoutComment stack, []⟩ from
    passes.imp fun again taken => ⟨taken, again.display_blank c⟩
  cases formed with
  | executable isCode =>
      rw [isCode.withoutComment_eq]
      exact ⟨.code, .inCode isCode (passive_blank _ c rest)⟩
  | lineComment isCode | blockComment isCode =>
      exact ⟨.code, .inCode isCode (passive_blank _ c rest)⟩
  | quoted quote isCode =>
      have lineFeed := inLine quote rfl
      refine ⟨.hidden, .inString quote _ rest ?_ ?_ ?_⟩ <;>
        rcases blank_cases c with ⟨shown, eq⟩ | shown | shown <;>
        cases quote <;> simp_all [Quote.char]
  | template isCode =>
      refine ⟨.hidden, .inTemplate _ ?_ ?_ ?_⟩ <;>
        rcases blank_cases c with ⟨shown, -⟩ | shown | shown <;> simp [shown]

/-! ## The two scans side by side -/

theorem Executable.shadow_eq {stack : List Mode} (isCode : Executable stack)
    (pending : List Role) :
    Scanner.shadow ⟨stack, pending⟩ = ⟨stack, pending.filter (· != .hidden)⟩ := by
  rw [Scanner.shadow, isCode.withoutComment_eq]

/-- What executable code passes over in a text it passes over in the masked text. -/
theorem Passive.shown {stack : List Mode} {c : Char} {rest : List Char} {next : Scanner}
    (passive : Passive stack c rest) : Passive stack c (next.shown rest) where
  lineComment := fun ⟨slash, shows⟩ =>
    passive.lineComment ⟨slash, Scanner.head?_of_head?_shown shows (by decide)⟩
  blockComment := fun ⟨slash, shows⟩ =>
    passive.blockComment ⟨slash, Scanner.head?_of_head?_shown shows (by decide)⟩
  single := passive.single
  double := passive.double
  backtick := passive.backtick
  brace := passive.brace

theorem Scanner.shown_decided (stack : List Mode) {role : Role} (visible : role ≠ .hidden)
    (pending : List Role) (c : Char) (rest : List Char) :
    Scanner.shown ⟨stack, role :: pending⟩ (c :: rest) =
      c :: Scanner.shown ⟨stack, pending⟩ rest := by
  rw [(Transition.decided stack role pending c rest).shown_cons, Role.display, if_neg visible]

/-- A step of the first scan is a step of the second from shadow to shadow, on the character that
the first shows, and the second shows that character again. -/
theorem Transition.shadow {scanner next : Scanner} {c : Char} {rest : List Char} {role : Role}
    (taken : Transition scanner c rest role next) (coherent : Coherent scanner (c :: rest)) :
    ∃ again, Transition scanner.shadow (role.display c) (next.shown rest) again next.shadow ∧
      again.display (role.display c) = role.display c := by
  have formed := coherent.formed
  cases taken with
  | decided stack role pending c rest =>
      by_cases hidden : role = .hidden
      · subst hidden
        have alone := coherent.alone List.mem_cons_self
        have inLine := coherent.inLine List.mem_cons_self
        obtain rfl : pending = [] := by simpa using alone
        exact formed.exists_transition_blank c (by simpa using inLine) _
      -- what shows is expected by the second scan as well
      · refine ⟨role, ?_, by simp [Role.display, hidden]⟩
        simpa [Scanner.shadow, Role.display, hidden] using
          Transition.decided (withoutComment stack) role (pending.filter (· != .hidden)) c _
  | lineCommentEnds below rest =>
      rw [(formed.executable_below rfl).shadow_eq]
      exact formed.exists_transition_blank '\n' (by simp) _
  | blockCommentEnds below slash =>
      rw [(formed.executable_below rfl).shadow_eq]
      exact formed.exists_transition_blank '*' (by simp) _
  | inLineComment | inBlockComment | inTemplate =>
      exact formed.exists_transition_blank c (by simp) _
  | templateEscape below rest =>
      exact formed.exists_transition_blank '\\' (by simp) _
  | stringEscape quote below noEnd =>
      exact formed.exists_transition_blank '\\' (by simp) _
  | inString quote below rest backslash closing lineFeed =>
      exact formed.exists_transition_blank c (fun _ _ => lineFeed) _
  | lineCommentOpens isCode slash | blockCommentOpens isCode slash =>
      -- the slash is a space by now, so the second scan stays in code
      have passes := formed.exists_transition_blank '/' (by cases isCode <;> simp)
      rw [isCode.withoutComment_eq] at passes
      rw [isCode.shadow_eq]
      exact passes _
  | longContinuation quote below rest =>
      rw [Scanner.shown_decided _ (by decide), Scanner.shown_decided _ (by decide)]
      exact ⟨.continuation, .longContinuation quote below _, rfl⟩
  | continuation quote below isEnd short =>
      rw [Scanner.shown_decided _ (by decide)]
      refine ⟨.continuation, .continuation quote below isEnd ?_, rfl⟩
      rintro ⟨carriage, lineFeed⟩
      exact short ⟨carriage, Scanner.head?_of_head?_shown lineFeed (by decide)⟩
  | stringEnds quote below rest =>
      rw [(formed.executable_below rfl).shadow_eq]
      exact ⟨.delimiter, .stringEnds quote below _, rfl⟩
  | stringBreaks quote below rest =>
      rw [(formed.executable_below rfl).shadow_eq]
      exact ⟨.hidden, .stringBreaks quote below _, rfl⟩
  | templateEnds below rest =>
      rw [(formed.executable_below rfl).shadow_eq]
      exact ⟨.delimiter, .templateEnds below _, rfl⟩
  | interpolationOpens below brace =>
      -- the brace is a delimiter too, so the dollar still has it behind it
      obtain ⟨rest, rfl⟩ := List.head?_eq_some_iff.mp brace
      rw [Scanner.shown_decided _ (by decide)]
      exact ⟨.delimiter, .interpolationOpens below rfl, rfl⟩
  | stringOpens quote isCode rest =>
      rw [isCode.shadow_eq]
      exact ⟨.delimiter, .stringOpens quote isCode _, rfl⟩
  | templateOpens isCode rest =>
      rw [isCode.shadow_eq]
      exact ⟨.delimiter, .templateOpens isCode _, rfl⟩
  | braceOpens depth below rest => exact ⟨.code, .braceOpens depth below _, rfl⟩
  | interpolationCloses below rest =>
      obtain ⟨outer, rfl, isCode⟩ := formed.interpolation_below
      exact ⟨.delimiter, .interpolationCloses _ _, rfl⟩
  | braceCloses depth below rest => exact ⟨.code, .braceCloses depth below _, rfl⟩
  | inCode isCode passive =>
      rw [isCode.shadow_eq]
      exact ⟨.code, .inCode isCode passive.shown, rfl⟩

/-- The second scan shows what the first shows: the shadow of a state shows the text that the state
shows. -/
theorem Scanner.shown_shadow {scanner : Scanner} {text : List Char}
    (coherent : Coherent scanner text) :
    scanner.shadow.shown (scanner.shown text) = scanner.shown text := by
  induction text generalizing scanner with
  | nil => simp
  | cons c rest ih =>
    obtain ⟨role, next, taken⟩ := coherent.formed.exists_transition scanner.pending c rest
    obtain ⟨again, follows, same⟩ := taken.shadow coherent
    rw [taken.shown_cons, follows.shown_cons, same, ih (taken.coherent coherent)]

/-- Masking is idempotent: a masked script has nothing left to mask. -/
theorem mask_mask (script : List Char) : mask (mask script) = mask script := by
  rw [mask_eq_shown, mask_eq_shown]
  exact Scanner.shown_shadow (Coherent.start script)

end ImportSupply.Literal
