import ImportSupply.Proofs.Literal.Nesting

/-!
# Masking script by script

What stands behind a script hardly matters to how it is masked. The reasons, from the step to the
scan:

* **lookahead** — the role of a character depends on the next character only, and the state behind
  it on the next two, where a backslash in a string has a carriage return behind it
  (`Transition.of_head?_eq`);
* **causality** — so a scan that goes on and a scan that ends go together up to the last character
  (`Scanner.exists_shown_concat`);
* **boundaries** — where the scan of a script ends in executable code, only a slash can make its
  last character part of what follows (`Transition.shown_cons_iff`).
-/

namespace ImportSupply.Literal

/-! ## Lookahead -/

theorem not_executable_quoted (quote : Quote) (below : List Mode) :
    ¬Executable (.quoted quote :: below) := by
  intro isCode
  cases isCode

/-- Where the next character is the same, a character has the same role, and the states behind it
differ at most in a line continuation that reaches further. -/
theorem Transition.of_head?_eq {scanner next : Scanner} {c : Char} {rest other : List Char}
    {role : Role} (taken : Transition scanner c rest role next) (same : rest.head? = other.head?) :
    ∃ behind, Transition scanner c other role behind ∧
      (behind = next ∨
        rest.tail.head? ≠ other.tail.head? ∧ ¬Executable next.stack ∧ next.pending ≠ []) := by
  cases taken with
  | decided stack role pending c rest => exact ⟨_, .decided stack role pending c other, .inl rfl⟩
  | lineCommentEnds below rest => exact ⟨_, .lineCommentEnds below other, .inl rfl⟩
  | inLineComment below rest inside => exact ⟨_, .inLineComment below other inside, .inl rfl⟩
  | blockCommentEnds below slash => exact ⟨_, .blockCommentEnds below (same ▸ slash), .inl rfl⟩
  | inBlockComment below inside => exact ⟨_, .inBlockComment below (same ▸ inside), .inl rfl⟩
  -- The only cases that look two characters ahead: a line continuation may take a line feed with
  -- its carriage return.
  | longContinuation quote below rest =>
    obtain ⟨more, rfl⟩ := List.head?_eq_some_iff.mp same.symm
    by_cases lineFeed : more.head? = some '\n'
    · obtain ⟨more, rfl⟩ := List.head?_eq_some_iff.mp lineFeed
      exact ⟨_, .longContinuation quote below more, .inl rfl⟩
    · refine ⟨_, .continuation quote below rfl (fun long => lineFeed long.2), .inr ?_⟩
      exact ⟨fun shared => lineFeed shared.symm, not_executable_quoted quote below, by simp⟩
  | @continuation quote below lineEnd rest isEnd short =>
    obtain ⟨more, rfl⟩ := List.head?_eq_some_iff.mp same.symm
    by_cases long : lineEnd = '\r' ∧ more.head? = some '\n'
    · obtain ⟨rfl, lineFeed⟩ := long
      obtain ⟨more, rfl⟩ := List.head?_eq_some_iff.mp lineFeed
      refine ⟨_, .longContinuation quote below more, .inr ?_⟩
      exact ⟨fun shared => short ⟨rfl, shared⟩, not_executable_quoted quote below, by simp⟩
    · exact ⟨_, .continuation quote below isEnd long, .inl rfl⟩
  | stringEscape quote below noEnd =>
    exact ⟨_, .stringEscape quote below (same ▸ noEnd), .inl rfl⟩
  | stringEnds quote below rest => exact ⟨_, .stringEnds quote below other, .inl rfl⟩
  | stringBreaks quote below rest => exact ⟨_, .stringBreaks quote below other, .inl rfl⟩
  | inString quote below rest backslash closing lineFeed =>
    exact ⟨_, .inString quote below other backslash closing lineFeed, .inl rfl⟩
  | templateEscape below rest => exact ⟨_, .templateEscape below other, .inl rfl⟩
  | templateEnds below rest => exact ⟨_, .templateEnds below other, .inl rfl⟩
  | interpolationOpens below brace =>
    exact ⟨_, .interpolationOpens below (same ▸ brace), .inl rfl⟩
  | inTemplate below backslash backtick inside =>
    exact ⟨_, .inTemplate below backslash backtick (same ▸ inside), .inl rfl⟩
  | lineCommentOpens isCode slash =>
    exact ⟨_, .lineCommentOpens isCode (same ▸ slash), .inl rfl⟩
  | blockCommentOpens isCode star =>
    exact ⟨_, .blockCommentOpens isCode (same ▸ star), .inl rfl⟩
  | stringOpens quote isCode rest => exact ⟨_, .stringOpens quote isCode other, .inl rfl⟩
  | templateOpens isCode rest => exact ⟨_, .templateOpens isCode other, .inl rfl⟩
  | braceOpens depth below rest => exact ⟨_, .braceOpens depth below other, .inl rfl⟩
  | interpolationCloses below rest => exact ⟨_, .interpolationCloses below other, .inl rfl⟩
  | braceCloses depth below rest => exact ⟨_, .braceCloses depth below other, .inl rfl⟩
  | inCode isCode passive =>
    obtain ⟨lineComment, blockComment, single, double, backtick, brace⟩ := passive
    rw [same] at lineComment blockComment
    exact ⟨_, .inCode isCode ⟨lineComment, blockComment, single, double, backtick, brace⟩, .inl rfl⟩

/-! ## Causality -/

/-- A scan that goes on and a scan that ends go together up to the last character, and they stand in
the same state there, unless that character is part of a line continuation. -/
theorem Scanner.exists_shown_concat {scanner : Scanner} (formed : WellFormed scanner.stack)
    (front : List Char) (c : Char) (more : List Char) :
    ∃ shown, shown.length = front.length ∧
      scanner.shown (front ++ [c]) = shown ++ (scanner.behind front [c]).shown [c] ∧
      scanner.shown (front ++ c :: more) =
        shown ++ (scanner.behind front (c :: more)).shown (c :: more) ∧
      (scanner.behind front (c :: more) = scanner.behind front [c] ∨
        ¬Executable (scanner.behind front [c]).stack ∧
          (scanner.behind front [c]).pending ≠ []) := by
  induction front generalizing scanner with
  | nil => exact ⟨[], rfl, rfl, rfl, .inl rfl⟩
  | cons d front ih =>
    obtain ⟨role, next, taken⟩ := formed.exists_transition scanner.pending d (front ++ [c])
    have head : (front ++ [c]).head? = (front ++ c :: more).head? := by cases front <;> rfl
    obtain ⟨behind, follows, agree⟩ := taken.of_head?_eq head
    rw [List.cons_append, List.cons_append, taken.shown_cons, follows.shown_cons, Scanner.behind,
      Scanner.behind, taken.step_eq, follows.step_eq]
    rcases agree with rfl | ⟨differ, inString, continued⟩
    · obtain ⟨shown, long, ends, goesOn, agree⟩ := ih (taken.wellFormed formed)
      exact ⟨role.display d :: shown, by rw [List.length_cons, long, List.length_cons],
        by rw [ends, List.cons_append], by rw [goesOn, List.cons_append], agree⟩
    · -- only the very next character can be the last one
      cases front with
      | nil => exact ⟨[role.display d], rfl, rfl, rfl, .inr ⟨inString, continued⟩⟩
      | cons e front => exact absurd (by cases front <;> rfl) differ

/-! ## Boundaries -/

/-- In executable code no more characters are decided than there are. -/
theorem Transition.length_pending_le {scanner next : Scanner} {c : Char} {rest : List Char}
    {role : Role} (taken : Transition scanner c rest role next)
    (within : Executable scanner.stack → scanner.pending.length ≤ (c :: rest).length)
    (isCode : Executable next.stack) : next.pending.length ≤ rest.length := by
  cases taken with
  | decided => exact Nat.le_of_succ_le_succ (within isCode)
  | blockCommentEnds below ahead | interpolationOpens below ahead =>
    obtain ⟨rest, rfl⟩ := List.head?_eq_some_iff.mp ahead
    exact Nat.succ_le_succ (Nat.zero_le _)
  | longContinuation | continuation | stringEscape | templateEscape | lineCommentOpens
  | blockCommentOpens => cases isCode
  | lineCommentEnds | inLineComment | inBlockComment | stringEnds | stringBreaks | inString
  | templateEnds | inTemplate | stringOpens | templateOpens | braceOpens | interpolationCloses
  | braceCloses | inCode => exact Nat.zero_le _

theorem Scanner.length_pending_reached_le {front back : List Char}
    (isCode : Executable (reached front back).stack) :
    (reached front back).pending.length ≤ back.length := by
  induction front using List.reverseRecOn generalizing back with
  | nil => exact Nat.zero_le _
  | append_singleton front c ih =>
    obtain ⟨role, taken⟩ := exists_transition_reached front c back
    exact taken.length_pending_le (fun isCode => ih isCode) isCode

/-- A scan that ends in plain code is where it started. -/
theorem Scanner.reached_eq_start {text : List Char}
    (neutral : (reached text []).stack = [.code]) : reached text [] = start := by
  have isCode : Executable (reached text []).stack := neutral ▸ .code
  have settled : (reached text []).pending = [] :=
    List.eq_nil_of_length_eq_zero (Nat.le_zero.mp (length_pending_reached_le isCode))
  exact congrArg₂ Scanner.mk neutral settled

theorem Transition.stack_of_pending_ne_nil {scanner next : Scanner} {c : Char} {rest : List Char}
    {role : Role} (taken : Transition scanner c rest role next) (decided : scanner.pending ≠ []) :
    next.stack = scanner.stack := by
  cases taken with
  | decided => rfl
  | _ => exact absurd rfl decided

/-- The last character of a script that ends in executable code is read so whatever follows, and it
is no slash of its own, or it is code that opens nothing. -/
theorem Transition.last_cases {scanner next : Scanner} {c : Char} {role : Role}
    (taken : Transition scanner c [] role next) (isCode : Executable next.stack) :
    (¬(scanner.pending = [] ∧ c = '/') ∧ ∀ more, Transition scanner c more role next) ∨
      scanner = next ∧ next.pending = [] ∧ role = .code ∧ Passive next.stack c [] := by
  cases taken with
  | decided stack role pending c => exact .inl ⟨by simp, .decided stack role pending c⟩
  | lineCommentEnds below => exact .inl ⟨by simp, .lineCommentEnds below⟩
  | stringEnds quote below =>
    exact .inl ⟨by cases quote <;> simp [Quote.char], .stringEnds quote below⟩
  | stringBreaks quote below => exact .inl ⟨by simp, .stringBreaks quote below⟩
  | templateEnds below => exact .inl ⟨by simp, .templateEnds below⟩
  | braceOpens depth below => exact .inl ⟨by simp, .braceOpens depth below⟩
  | interpolationCloses below => exact .inl ⟨by simp, .interpolationCloses below⟩
  | braceCloses depth below => exact .inl ⟨by simp, .braceCloses depth below⟩
  | inCode isCode passive => exact .inr ⟨rfl, rfl, rfl, passive⟩
  | blockCommentEnds _ ahead | interpolationOpens _ ahead | lineCommentOpens _ ahead
  | blockCommentOpens _ ahead => cases ahead
  | inLineComment | inBlockComment | stringEscape | inString | templateEscape | inTemplate
  | stringOpens | templateOpens => cases isCode

/-- What is passive at the end of a script stays so before another one, but for a slash that this
one makes part of a comment. -/
theorem Passive.before {stack : List Mode} {c : Char} {more : List Char}
    (passive : Passive stack c [])
    (apart : ¬(c = '/' ∧ (more.head? = some '/' ∨ more.head? = some '*'))) :
    Passive stack c more :=
  { passive with
    lineComment := fun opens => apart ⟨opens.1, .inl opens.2⟩
    blockComment := fun opens => apart ⟨opens.1, .inr opens.2⟩ }

/-- A slash that opens a comment does not show. -/
theorem Executable.exists_shown_slash {stack : List Mode} (isCode : Executable stack)
    {more : List Char} (opens : more.head? = some '/' ∨ more.head? = some '*') :
    ∃ shown, Scanner.shown ⟨stack, []⟩ ('/' :: more) = ' ' :: shown := by
  rcases opens with slash | star
  · exact ⟨_, (Transition.lineCommentOpens isCode slash).shown_cons⟩
  · exact ⟨_, (Transition.blockCommentOpens isCode star).shown_cons⟩

/-- Behind a script that ends in executable code another one goes on where the first ended, unless
the two meet in a comment. -/
theorem Transition.shown_cons_iff {scanner next : Scanner} {c : Char} {role : Role}
    (taken : Transition scanner c [] role next) (isCode : Executable next.stack)
    (more : List Char) :
    scanner.shown (c :: more) = role.display c :: next.shown more ↔
      ¬(scanner.pending = [] ∧ c = '/' ∧ (more.head? = some '/' ∨ more.head? = some '*')) := by
  rcases taken.last_cases isCode with ⟨noSlash, anyhow⟩ | ⟨rfl, settled, rfl, passive⟩
  · exact iff_of_true (anyhow more).shown_cons fun meets => noSlash ⟨meets.1, meets.2.1⟩
  obtain ⟨stack, pending⟩ := scanner
  obtain rfl : pending = [] := settled
  rw [and_iff_right rfl]
  refine ⟨?_, fun apart => (Transition.inCode isCode (passive.before apart)).shown_cons⟩
  rintro goesOn ⟨rfl, opens⟩
  obtain ⟨shown, hidden⟩ := isCode.exists_shown_slash opens
  exact absurd (List.cons.inj (goesOn.symm.trans hidden)).1 (by decide)

/-! ## Scripts -/

/-- A script that ends in a slash at which its scan stops: no move before it reads the slash. -/
def EndsInSlash (script : List Char) : Prop :=
  ∃ front, script = front ++ ['/'] ∧
    ∃ cursor, Cursor.Visits script cursor ∧ cursor.place = front.length

theorem exists_visits_last_iff (front : List Char) (c : Char) :
    (∃ cursor, Cursor.Visits (front ++ [c]) cursor ∧ cursor.place = front.length) ↔
      (Scanner.reached front [c]).pending = [] := by
  rw [Cursor.exists_visits_iff (by simp), Scanner.stateAt_append]

theorem endsInSlash_concat {front : List Char} {c : Char} :
    EndsInSlash (front ++ [c]) ↔ (Scanner.reached front [c]).pending = [] ∧ c = '/' := by
  constructor
  · rintro ⟨other, same, stops⟩
    obtain ⟨rfl, rfl⟩ := List.append_singleton_inj.mp same
    exact ⟨(exists_visits_last_iff _ _).mp stops, rfl⟩
  · rintro ⟨settled, rfl⟩
    exact ⟨front, rfl, (exists_visits_last_iff _ _).mpr settled⟩

/-- A scan ends in the modes that a scanner has behind the script. -/
theorem Cursor.stack_scan (script : List Char) :
    (start.scan script.toArray).stack = (Scanner.reached script []).stack := by
  rw [← Visits.start.scan.meets.stack,
    Scanner.stateAt_of_length_le (length_le_place_scan script start)]

/-- Behind a script that ends in plain code another script is masked on its own, unless the two meet
in a comment. -/
theorem mask_concat_append_iff {front : List Char} {c : Char}
    (neutral : (Scanner.reached (front ++ [c]) []).stack = [.code]) (second : List Char) :
    mask (front ++ c :: second) = mask (front ++ [c]) ++ mask second ↔
      ¬(EndsInSlash (front ++ [c]) ∧ (second.head? = some '/' ∨ second.head? = some '*')) := by
  have isCode : Executable (Scanner.reached (front ++ [c]) []).stack := neutral ▸ .code
  obtain ⟨role, taken⟩ := Scanner.exists_transition_reached front c []
  obtain ⟨shown, -, ends, goesOn, agree⟩ :=
    Scanner.exists_shown_concat WellFormed.start front c second
  have together : Scanner.reached front (c :: second) = Scanner.reached front [c] := by
    rcases agree with same | ⟨inString, continued⟩
    · exact same
    · -- a line continuation stays in its string
      rw [taken.stack_of_pending_ne_nil continued] at isCode
      exact absurd isCode inString
  have first : mask (front ++ [c]) = shown ++ [role.display c] :=
    (mask_eq_shown _).trans (ends.trans (congrArg (shown ++ ·) taken.shown_cons))
  have whole : mask (front ++ c :: second) =
      shown ++ (Scanner.reached front [c]).shown (c :: second) := by
    rw [mask_eq_shown, goesOn, ← together]
    rfl
  have boundary := taken.shown_cons_iff isCode second
  rw [Scanner.reached_eq_start neutral] at boundary
  rw [first, whole, mask_eq_shown second, List.append_assoc, List.append_cancel_left_eq,
    List.singleton_append, endsInSlash_concat, and_assoc]
  exact boundary

/-- **Masking script by script.** Where the scan of a script ends in plain code, the script behind
it is masked on its own, if and only if the two do not meet in a comment: a slash at the end of the
first that belongs to nothing before it, and a slash or a star at the start of the second. Wherever
the scan ends, what shows before the last character of a script does not depend on what follows. -/
theorem mask_append (first second : List Char) :
    ((Cursor.start.scan first.toArray).stack = [.code] →
      (mask (first ++ second) = mask first ++ mask second ↔
        ¬(EndsInSlash first ∧ (second.head? = some '/' ∨ second.head? = some '*')))) ∧
    ∀ index, index + 1 < first.length →
      (mask (first ++ second))[index]? = (mask first)[index]? := by
  rcases List.eq_nil_or_concat' first with rfl | ⟨front, c, rfl⟩
  · simp [mask_nil, EndsInSlash]
  rw [List.append_assoc, List.singleton_append]
  constructor
  · intro neutral
    rw [Cursor.stack_scan] at neutral
    exact mask_concat_append_iff neutral second
  · intro index inside
    obtain ⟨shown, long, ends, goesOn, -⟩ :=
      Scanner.exists_shown_concat WellFormed.start front c second
    have early : index < shown.length := by simpa [long] using inside
    rw [mask_eq_shown, mask_eq_shown, ends, goesOn, List.getElem?_append_left early,
      List.getElem?_append_left early]

/-- A division behind the slash of a closed comment, and a backslash that continues a string only
once its line end follows. -/
theorem mask_append_closed_comment :
    (Cursor.start.scan "a/*b*/".toList.toArray).stack = [.code] ∧ ¬EndsInSlash "a/*b*/".toList ∧
      mask ("a/*b*/".toList ++ "/c".toList) = mask "a/*b*/".toList ++ mask "/c".toList ∧
      (mask ("'a\\".toList ++ "\n'".toList))[1]? = (mask "'a\\".toList)[1]? := by
  have consumed : ¬EndsInSlash "a/*b*/".toList := by
    have text : "a/*b*/".toList = "a/*b*".toList ++ ['/'] := by decide
    rw [text, endsInSlash_concat]
    decide
  obtain ⟨compose, -⟩ := mask_append "a/*b*/".toList "/c".toList
  obtain ⟨-, causal⟩ := mask_append "'a\\".toList "\n'".toList
  have neutral : (Cursor.start.scan "a/*b*/".toList.toArray).stack = [.code] := by decide +kernel
  exact ⟨neutral, consumed, (compose neutral).mpr fun meets => consumed meets.1,
    causal 1 (by decide)⟩

end ImportSupply.Literal
