import ImportSupply.Proofs.Literal.Provenance
import Mathlib.Data.List.Infix

/-!
# How the modes of a scan nest

Whatever the text, balanced or not, the stack of modes keeps its shape at every place of a scan:

* **places in the stack** — plain code at the bottom and nowhere else, interpolations on templates,
  templates on executable code, comments and plain strings only on top (`Nested`);
* **steps** — a character opens one mode, closes one mode that is not the bottom, or moves the depth
  of an interpolation by one, down only from above zero (`Adjusts`);
* **histories** — an interpolation lies on the very template it was opened in, and its depth is the
  balance of its own braces since then (`OpenSince`).

So the brace that closes an interpolation puts the scan back into the state in which it was opened.
-/

namespace ImportSupply.Literal

namespace Scanner

theorem wellFormed_reached (front back : List Char) : WellFormed (reached front back).stack :=
  (Expectant.start (front ++ back)).behind.formed

/-- Between two places of a scan lies a transition. -/
theorem exists_transition_reached (front : List Char) (c : Char) (rest : List Char) :
    ∃ role, Transition (reached front (c :: rest)) c rest role (reached (front ++ [c]) rest) := by
  obtain ⟨role, next, taken⟩ := (wellFormed_reached front (c :: rest)).exists_transition
    (reached front (c :: rest)).pending c rest
  rw [reached_concat, taken.step_eq]
  exact ⟨role, taken⟩

end Scanner

/-! ## Places in the stack -/

/-- What a mode may lie on. -/
structure Placed (mode : Mode) (below : List Mode) : Prop where
  /-- The bottom, and only the bottom, is plain code. -/
  bottom : mode = .code ↔ below = []
  interpolation : ∀ depth, mode = .interpolation depth → below.head? = some .template
  template : mode = .template → below.head?.any Mode.isExecutable = true

/-- A stack of modes as scans have it. -/
structure Nested (stack : List Mode) : Prop where
  nonempty : stack ≠ []
  placed : ∀ mode below, mode :: below <:+ stack → Placed mode below
  /-- Comments and plain strings are open only on top. -/
  covered : ∀ mode ∈ stack.tail, mode.isExecutable = true ∨ mode = .template

theorem Executable.ne_nil {stack : List Mode} (isCode : Executable stack) : stack ≠ [] := by
  cases isCode <;> simp

/-- What is no executable code itself may lie on executable code. -/
theorem Executable.placed_on {below : List Mode} (isCode : Executable below) {mode : Mode}
    (literal : mode.isExecutable = false) : Placed mode below where
  bottom := by
    have filled := isCode.ne_nil
    cases mode <;> simp_all [Mode.isExecutable]
  interpolation := by
    rintro depth rfl
    cases literal
  template := by
    intro _
    cases isCode <;> rfl

theorem Executable.placed {stack : List Mode} (isCode : Executable stack) {mode : Mode}
    {below : List Mode} (part : mode :: below <:+ stack) : Placed mode below := by
  induction isCode with
  | code =>
    obtain ⟨rfl, rfl⟩ : mode = .code ∧ below = [] := by simpa [List.suffix_cons_iff] using part
    exact ⟨by simp, by simp, by simp⟩
  | @interpolation depth outer isCode ih =>
    rcases List.suffix_cons_iff.mp part with whole | part
    · obtain ⟨rfl, rfl⟩ := List.cons.inj whole
      exact ⟨by simp, by simp, by simp⟩
    rcases List.suffix_cons_iff.mp part with whole | part
    · obtain ⟨rfl, rfl⟩ := List.cons.inj whole
      exact isCode.placed_on rfl
    · exact ih part

theorem Executable.covered {stack : List Mode} (isCode : Executable stack) :
    ∀ mode ∈ stack, mode.isExecutable = true ∨ mode = .template := by
  induction isCode with
  | code => simp [Mode.isExecutable]
  | interpolation depth isCode ih =>
    rw [List.forall_mem_cons, List.forall_mem_cons]
    exact ⟨.inl rfl, .inr rfl, ih⟩

theorem Executable.nested {stack : List Mode} (isCode : Executable stack) : Nested stack :=
  ⟨isCode.ne_nil, fun _ _ part => isCode.placed part,
    fun mode member => isCode.covered mode (List.mem_of_mem_tail member)⟩

/-- One literal or comment may be open on executable code. -/
theorem Executable.nested_cons {below : List Mode} (isCode : Executable below) {mode : Mode}
    (literal : mode.isExecutable = false) : Nested (mode :: below) where
  nonempty := by simp
  placed := by
    intro other under part
    rcases List.suffix_cons_iff.mp part with whole | part
    · obtain ⟨rfl, rfl⟩ := List.cons.inj whole
      exact isCode.placed_on literal
    · exact isCode.placed part
  covered := isCode.covered

theorem WellFormed.nested {stack : List Mode} (formed : WellFormed stack) : Nested stack := by
  cases formed with
  | executable isCode => exact isCode.nested
  | lineComment isCode | blockComment isCode | quoted _ isCode | template isCode =>
    exact isCode.nested_cons rfl

/-- Of a stack that is not empty the top is there, whatever would stand in for it. -/
theorem Nested.headD_eq_top {stack : List Mode} (nested : Nested stack) (fallback : Mode) :
    stack.headD fallback = Mode.top stack := by
  obtain ⟨mode, below, rfl⟩ := List.exists_cons_of_ne_nil nested.nonempty
  rfl

/-! ## Steps -/

/-- What a character does to the stack of modes. -/
inductive Adjusts : Scanner → Char → List Char → List Mode → Prop
  /-- Nothing opens or closes; on top of an interpolation the character is no brace. -/
  | keeps {scanner : Scanner} {c : Char} {rest : List Char}
      (quiet : ∀ depth below, scanner = ⟨.interpolation depth :: below, []⟩ → c ≠ '{' ∧ c ≠ '}') :
      Adjusts scanner c rest scanner.stack
  /-- A comment, a plain string or a template opens. -/
  | opens {stack : List Mode} {c : Char} {rest : List Char} (mode : Mode)
      (literal : mode.isExecutable = false) (noBrace : c ≠ '{' ∧ c ≠ '}') :
      Adjusts ⟨stack, []⟩ c rest (mode :: stack)
  /-- A comment, a plain string or a template closes, and something is left. -/
  | closes {below : List Mode} {c : Char} {rest : List Char} (mode : Mode)
      (literal : mode.isExecutable = false) (left : below ≠ []) :
      Adjusts ⟨mode :: below, []⟩ c rest below
  /-- An interpolation opens in a template. -/
  | enters (outer : List Mode) {rest : List Char} (brace : rest.head? = some '{') :
      Adjusts ⟨.template :: outer, []⟩ '$' rest (.interpolation 0 :: .template :: outer)
  /-- An interpolation closes, and a template is left. -/
  | leaves (outer : List Mode) (rest : List Char) :
      Adjusts ⟨.interpolation 0 :: .template :: outer, []⟩ '}' rest (.template :: outer)
  | deepens (depth : Nat) (below : List Mode) (rest : List Char) :
      Adjusts ⟨.interpolation depth :: below, []⟩ '{' rest (.interpolation (depth + 1) :: below)
  | rises (depth : Nat) (below : List Mode) (rest : List Char) :
      Adjusts ⟨.interpolation (depth + 1) :: below, []⟩ '}' rest (.interpolation depth :: below)

theorem Quote.char_ne_brace (quote : Quote) : quote.char ≠ '{' ∧ quote.char ≠ '}' := by
  cases quote <;> decide

theorem Transition.adjusts {scanner next : Scanner} {c : Char} {rest : List Char} {role : Role}
    (taken : Transition scanner c rest role next) (formed : WellFormed scanner.stack) :
    Adjusts scanner c rest next.stack := by
  cases taken with
  | decided | inLineComment | inBlockComment | longContinuation | continuation | stringEscape
  | inString | templateEscape | inTemplate => exact .keeps (by simp)
  | inCode isCode passive =>
    refine .keeps fun depth below here => passive.brace ?_
    rw [(Scanner.mk.inj here).1]
    simp
  | lineCommentEnds | blockCommentEnds | stringEnds | stringBreaks | templateEnds =>
    exact .closes _ rfl (formed.executable_below rfl).ne_nil
  | lineCommentOpens | blockCommentOpens | templateOpens => exact .opens _ rfl (by decide)
  | stringOpens quote isCode rest => exact .opens _ rfl quote.char_ne_brace
  | interpolationOpens below brace => exact .enters below brace
  | interpolationCloses below rest =>
    obtain ⟨outer, rfl, -⟩ := formed.interpolation_below
    exact .leaves outer rest
  | braceOpens depth below rest => exact .deepens depth below rest
  | braceCloses depth below rest => exact .rises depth below rest

/-! ## Histories -/

/-- What a character adds to the open braces of the mode at a height of the stack: that mode has to
be on top, and the character must not belong to what was read before. -/
def braceWeight (height : Nat) (scanner : Scanner) (c : Char) : Int :=
  if scanner.pending = [] ∧ scanner.stack.length = height then
    if c = '{' then 1 else if c = '}' then -1 else 0
  else 0

/-- The opening braces less the closing ones that a text has for the mode at a height of the
stack. -/
def Scanner.balance (height : Nat) (scanner : Scanner) : List Char → List Char → Int
  | [], _ => 0
  | c :: front, back =>
      braceWeight height scanner c + (scanner.step c (front ++ back)).2.balance height front back

theorem Scanner.balance_append (height : Nat) (scanner : Scanner) (front middle back : List Char) :
    scanner.balance height (front ++ middle) back =
      scanner.balance height front (middle ++ back) +
        (scanner.behind front (middle ++ back)).balance height middle back := by
  induction front generalizing scanner with
  | nil => simp [balance, behind]
  | cons c front ih =>
    rw [List.cons_append, balance, balance, behind, ih, List.append_assoc, Int.add_assoc]

theorem braceWeight_of_ne {height : Nat} {scanner : Scanner} {c : Char}
    (noBrace : c ≠ '{' ∧ c ≠ '}') : braceWeight height scanner c = 0 := by
  simp [braceWeight, noBrace]

/-- On top of the stack every brace counts that is read on its own. -/
theorem braceWeight_top (mode : Mode) (below : List Mode) (c : Char) :
    braceWeight (below.length + 1) ⟨mode :: below, []⟩ c =
      if c = '{' then 1 else if c = '}' then -1 else 0 :=
  if_pos ⟨rfl, rfl⟩

/-- Below the top of the stack an interpolation keeps its depth, and no brace counts for it. -/
theorem exists_earlier_of_covered {scanner : Scanner} {mode : Mode} {stack below : List Mode}
    {depth : Nat} (covers : scanner.stack = mode :: stack)
    (isOpen : .interpolation depth :: below <:+ stack) (c : Char) :
    ∃ earlier : Nat, .interpolation earlier :: below <:+ scanner.stack ∧
      (depth : Int) = earlier + braceWeight (below.length + 1) scanner c := by
  have higher : below.length + 1 < scanner.stack.length := by
    rw [covers]
    exact Nat.lt_succ_of_le isOpen.length_le
  refine ⟨depth, ?_, ?_⟩
  · rw [covers]
    exact isOpen.trans (List.suffix_cons mode stack)
  · rw [braceWeight, if_neg fun here => higher.ne' here.2, Int.add_zero]

/-- An interpolation on the stack has just been opened, on what lies below it, or it was there one
character ago, and its depth has changed by what the character adds. -/
theorem Adjusts.interpolation_cases {scanner : Scanner} {c : Char} {rest : List Char}
    {stack below : List Mode} {depth : Nat} (adjusts : Adjusts scanner c rest stack)
    (isOpen : .interpolation depth :: below <:+ stack) :
    (scanner = ⟨below, []⟩ ∧ below.head? = some .template ∧ c = '$' ∧ rest.head? = some '{' ∧
      depth = 0) ∨
    ∃ earlier : Nat, .interpolation earlier :: below <:+ scanner.stack ∧
      (depth : Int) = earlier + braceWeight (below.length + 1) scanner c := by
  cases adjusts with
  | keeps quiet =>
    refine .inr ⟨depth, isOpen, ?_⟩
    by_cases here : scanner.pending = [] ∧ scanner.stack.length = below.length + 1
    · -- the interpolation is on top, and there the character is no brace
      have whole : scanner.stack = .interpolation depth :: below :=
        (isOpen.eq_of_length here.2.symm).symm
      rw [braceWeight_of_ne (quiet depth below (by rw [← whole, ← here.1])), Int.add_zero]
    · rw [braceWeight, if_neg here, Int.add_zero]
  | opens mode literal noBrace =>
    refine .inr ⟨depth, ?_, by rw [braceWeight_of_ne noBrace, Int.add_zero]⟩
    rcases List.suffix_cons_iff.mp isOpen with whole | part
    · rw [← (List.cons.inj whole).1] at literal
      cases literal
    · exact part
  | closes | leaves => exact .inr (exists_earlier_of_covered rfl isOpen _)
  | enters outer brace =>
    rcases List.suffix_cons_iff.mp isOpen with whole | part
    · obtain ⟨same, rfl⟩ := List.cons.inj whole
      exact .inl ⟨rfl, rfl, rfl, brace, Mode.interpolation.inj same⟩
    · exact .inr ⟨depth, part, by rw [braceWeight_of_ne (by decide), Int.add_zero]⟩
  | deepens earlier under rest =>
    rcases List.suffix_cons_iff.mp isOpen with whole | part
    · obtain ⟨same, rfl⟩ := List.cons.inj whole
      obtain rfl := Mode.interpolation.inj same
      exact .inr ⟨earlier, List.suffix_rfl, by rw [braceWeight_top]; rfl⟩
    · exact .inr (exists_earlier_of_covered rfl part _)
  | rises later under rest =>
    rcases List.suffix_cons_iff.mp isOpen with whole | part
    · obtain ⟨same, rfl⟩ := List.cons.inj whole
      obtain rfl := Mode.interpolation.inj same
      refine .inr ⟨depth + 1, List.suffix_rfl, ?_⟩
      rw [braceWeight_top, if_neg (by decide), if_pos rfl]
      omega
    · exact .inr (exists_earlier_of_covered rfl part _)

/-- An interpolation that has been open on a stack since a place in the script: there the scan stood
in the static text of a template, before a dollar and a brace; ever since, the interpolation lies on
that same stack, and its depth is the balance of its own braces. -/
structure OpenSince (before since back : List Char) (below : List Mode) : Prop where
  opened : Scanner.reached before ('$' :: since ++ back) = ⟨below, []⟩
  template : below.head? = some .template
  brace : (since ++ back).head? = some '{'
  kept : ∀ early late, since = early ++ late → ∃ depth : Nat,
    .interpolation depth :: below <:+
        (Scanner.reached (before ++ '$' :: early) (late ++ back)).stack ∧
      (depth : Int) = (Scanner.reached (before ++ ['$']) (since ++ back)).balance
        (below.length + 1) early (late ++ back)

/-- Two modes at one height of a stack are one. -/
theorem eq_of_cons_suffix_cons {mode other : Mode} {below stack : List Mode}
    (part : mode :: below <:+ stack) (same : other :: below <:+ stack) : mode = other :=
  (List.cons.inj ((List.suffix_of_suffix_length_le part same le_rfl).eq_of_length rfl)).1

/-- One more character keeps an interpolation open that is still on the stack behind it. -/
theorem OpenSince.concat {before since rest : List Char} {below : List Mode} {c : Char}
    {depth earlier : Nat} (openSince : OpenSince before since (c :: rest) below)
    (there : .interpolation earlier :: below <:+
      (Scanner.reached (before ++ '$' :: since) (c :: rest)).stack)
    (here : .interpolation depth :: below <:+
      (Scanner.reached (before ++ '$' :: since ++ [c]) rest).stack)
    (weight : (depth : Int) = earlier +
      braceWeight (below.length + 1) (Scanner.reached (before ++ '$' :: since) (c :: rest)) c) :
    OpenSince before (since ++ [c]) rest below := by
  obtain ⟨opened, template, brace, kept⟩ := openSince
  have text : since ++ [c] ++ rest = since ++ c :: rest := by simp
  refine ⟨?_, template, by rw [text, brace], fun early late split => ?_⟩
  · rw [List.cons_append, text]
    exact opened
  rcases List.eq_nil_or_concat late with rfl | ⟨late, last, rfl⟩
  · -- the new place: what was counted up to the last one, and the character
    obtain rfl : early = since ++ [c] := by simpa using split.symm
    obtain ⟨counted, present, sum⟩ := kept since [] (by simp)
    obtain rfl : counted = earlier :=
      Mode.interpolation.inj (eq_of_cons_suffix_cons present there)
    have place : (Scanner.reached (before ++ ['$']) (since ++ c :: rest)).behind since (c :: rest) =
        Scanner.reached (before ++ '$' :: since) (c :: rest) := by
      rw [Scanner.reached, Scanner.reached, ← Scanner.behind_append]
      simp
    refine ⟨depth, by simpa using here, ?_⟩
    rw [text, Scanner.balance_append, List.nil_append, List.singleton_append, place, weight, sum]
    simp [Scanner.balance]
  · have split : since = early ++ late ∧ c = last := by simpa [← List.append_assoc] using split
    obtain ⟨rfl, rfl⟩ := split
    obtain ⟨counted, present, sum⟩ := kept early late rfl
    refine ⟨counted, by simpa using present, ?_⟩
    rw [sum]
    simp

/-- Every interpolation on the stack has been open since a place in the script. -/
theorem exists_openSince {front back : List Char} {depth : Nat} {below : List Mode}
    (isOpen : .interpolation depth :: below <:+ (Scanner.reached front back).stack) :
    ∃ before since, front = before ++ '$' :: since ∧ OpenSince before since back below := by
  -- by induction on the text read so far, character after character
  induction front using List.reverseRecOn generalizing back depth with
  | nil => simp [Scanner.reached, Scanner.behind, Scanner.start, List.suffix_cons_iff] at isOpen
  | append_singleton front c ih =>
    obtain ⟨role, taken⟩ := Scanner.exists_transition_reached front c back
    have adjusts := taken.adjusts (Scanner.wellFormed_reached front (c :: back))
    rcases adjusts.interpolation_cases isOpen with
      ⟨opened, template, rfl, brace, rfl⟩ | ⟨earlier, there, weight⟩
    · refine ⟨front, [], rfl, opened, template, brace, fun early late split => ?_⟩
      obtain ⟨rfl, rfl⟩ := List.append_eq_nil_iff.mp split.symm
      exact ⟨0, isOpen, rfl⟩
    · obtain ⟨before, since, rfl, openSince⟩ := ih there
      exact ⟨before, since ++ [c], by simp, openSince.concat there isOpen weight⟩

/-- A character that takes an interpolation off the stack is a brace at depth zero. -/
theorem Adjusts.eq_of_leaves {scanner : Scanner} {c : Char} {rest : List Char} {depth : Nat}
    {below : List Mode} (adjusts : Adjusts scanner c rest below)
    (onTop : scanner.stack = .interpolation depth :: below) :
    c = '}' ∧ scanner = ⟨.interpolation 0 :: below, []⟩ := by
  have shorter : below.length < scanner.stack.length := by simp [onTop]
  cases adjusts with
  | keeps => exact absurd shorter (Nat.lt_irrefl _)
  | opens | enters | deepens | rises =>
    simp only [List.length_cons] at shorter
    omega
  | closes mode literal left =>
    rw [(List.cons.inj onTop).1] at literal
    cases literal
  | leaves outer rest => exact ⟨rfl, rfl⟩

/-- Behind the brace that closes an interpolation the scan is where it was before the dollar that
opened it. -/
theorem exists_openSince_of_leaves {front rest : List Char} {c : Char} {depth : Nat}
    {below : List Mode}
    (onTop : (Scanner.reached front (c :: rest)).stack = .interpolation depth :: below)
    (off : (Scanner.reached (front ++ [c]) rest).stack = below) :
    c = '}' ∧ ∃ before inside, front = before ++ '$' :: '{' :: inside ∧
      OpenSince before ('{' :: inside) (c :: rest) below ∧
      Scanner.reached (front ++ [c]) rest =
        Scanner.reached before ('$' :: '{' :: inside ++ c :: rest) := by
  obtain ⟨role, taken⟩ := Scanner.exists_transition_reached front c rest
  have adjusts := taken.adjusts (Scanner.wellFormed_reached front (c :: rest))
  rw [off] at adjusts
  obtain ⟨rfl, state⟩ := adjusts.eq_of_leaves onTop
  have isOpen : .interpolation depth :: below <:+ (Scanner.reached front ('}' :: rest)).stack := by
    rw [onTop]
  obtain ⟨before, since, rfl, openSince⟩ := exists_openSince isOpen
  -- the closing brace is not the opening one, so that one has been read
  have brace := openSince.brace
  cases since with
  | nil => simp at brace
  | cons d inside =>
    obtain rfl : d = '{' := by simpa using brace
    refine ⟨rfl, before, inside, rfl, openSince, ?_⟩
    rw [openSince.opened, Scanner.reached_concat, state,
      (Transition.interpolationCloses below rest).step_eq]

/-- The modes of a cursor are those of a scanner at its place, or at the end of the script if the
cursor is past it. -/
theorem Cursor.Visits.stack_eq {front back : List Char} {cursor : Cursor}
    (visited : Visits (front ++ back) cursor)
    (here : min cursor.place (front ++ back).length = front.length) :
    cursor.stack = (Scanner.reached front back).stack := by
  rw [← visited.meets.stack]
  by_cases inside : cursor.place ≤ (front ++ back).length
  · rw [Nat.min_eq_left inside] at here
    rw [here, Scanner.stateAt_append]
  · have behind : (front ++ back).length ≤ cursor.place := Nat.le_of_not_le inside
    rw [Nat.min_eq_right behind, List.length_append, Nat.add_eq_left,
      List.length_eq_zero_iff] at here
    subst here
    rw [Scanner.stateAt_of_length_le behind, List.append_nil]

/-- **The modes of a scan stay nested.** Every cursor of a scan has the modes that the scan reaches
at its place. At every place of every script the stack of modes is nested, so its top is there
whatever would stand in for it; a character opens one mode, closes one that is not the bottom, or
moves a depth by one, down only from above zero; an interpolation on the stack has been open, on
what lies below it, since a dollar and a brace in static template text, with the balance of its own
braces as its depth; and what takes it off the stack is a brace behind which the scan is where it
was before that dollar. -/
theorem reached_nested (front back : List Char) :
    (∀ cursor, Cursor.Visits (front ++ back) cursor →
        min cursor.place (front ++ back).length = front.length →
        cursor.stack = (Scanner.reached front back).stack) ∧
      Nested (Scanner.reached front back).stack ∧
      (∀ fallback, (Scanner.reached front back).stack.headD fallback =
        Mode.top (Scanner.reached front back).stack) ∧
      (∀ c rest, back = c :: rest →
        Adjusts (Scanner.reached front back) c rest (Scanner.reached (front ++ [c]) rest).stack) ∧
      (∀ depth below, .interpolation depth :: below <:+ (Scanner.reached front back).stack →
        ∃ before since, front = before ++ '$' :: since ∧ OpenSince before since back below) ∧
      ∀ c rest depth below, back = c :: rest →
        (Scanner.reached front back).stack = .interpolation depth :: below →
        (Scanner.reached (front ++ [c]) rest).stack = below →
        c = '}' ∧ ∃ before inside, front = before ++ '$' :: '{' :: inside ∧
          OpenSince before ('{' :: inside) back below ∧
          Scanner.reached (front ++ [c]) rest =
            Scanner.reached before ('$' :: '{' :: inside ++ back) := by
  have nested := (Scanner.wellFormed_reached front back).nested
  refine ⟨fun _ => Cursor.Visits.stack_eq, nested, nested.headD_eq_top, ?_,
    fun _ _ => exists_openSince, ?_⟩
  · rintro c rest rfl
    obtain ⟨role, taken⟩ := Scanner.exists_transition_reached front c rest
    exact taken.adjusts (Scanner.wellFormed_reached front (c :: rest))
  · rintro c rest depth below rfl onTop off
    exact exists_openSince_of_leaves onTop off

/-- An interpolation with braces and a template of its own, before its closing brace. -/
theorem reached_nested_template :
    let front := "`$\x7b\x7ba:`$\x7bb\x7d`\x7d".toList
    (Scanner.reached front ['}', '\x60']).stack = [.interpolation 0, .template, .code] ∧
      (Scanner.reached (front ++ ['}']) ['\x60']).stack = [.template, .code] ∧
      ∃ before inside, front = before ++ '$' :: '{' :: inside ∧
        OpenSince before ('{' :: inside) ['}', '\x60'] [.template, .code] ∧
        Scanner.reached (front ++ ['}']) ['\x60'] =
          Scanner.reached before ('$' :: '{' :: inside ++ ['}', '\x60']) := by
  intro front
  have onTop : (Scanner.reached front ['}', '\x60']).stack =
      [.interpolation 0, .template, .code] := by decide +kernel
  have off : (Scanner.reached (front ++ ['}']) ['\x60']).stack = [.template, .code] := by
    decide +kernel
  obtain ⟨-, -, -, -, -, closing⟩ := reached_nested front ['}', '\x60']
  exact ⟨onTop, off, (closing '}' ['\x60'] 0 [.template, .code] rfl onTop off).2⟩

end ImportSupply.Literal
