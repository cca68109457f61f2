import ImportSupply.Proofs.Binding.Heading

/-!
# Headings that are found

A search for declarations goes from left to right without overlap, so a heading is missed if an
earlier match of its kind reaches over it. That takes a text in front that is left open: one that
ends with a keyword of the kind, so that the heading's own keyword is read as a name, or for a type
one with parameters that are not closed. Behind any other text a heading is found
(`Kind.Heads.mem_namesOf`).
-/

namespace ImportSupply.Binding

open Pattern

/-! ## Texts that are left open -/

/-- The word that a text ends with, past characters of a class. -/
def lastWord (past : Char → Bool) (text : List Char) : List Char :=
  ((text.reverse.dropWhile past).takeWhile Text.isWord).reverse

theorem lastWord_append {past : Char → Bool} {front word trailing : List Char}
    (nonempty : word ≠ []) (inside : ∀ c ∈ word, Text.isWord c = true)
    (outside : ∀ c ∈ word, past c = false) (passed : ∀ c ∈ trailing, past c = true)
    (edge : front.getLast?.any Text.isWord = false) :
    lastWord past (front ++ (word ++ trailing)) = word := by
  have begins : (word.reverse ++ front.reverse).head?.any past = false := by
    rw [← List.reverse_append, List.head?_reverse, List.getLast?_append_of_ne_nil _ nonempty,
      List.getLast?_eq_some_getLast nonempty, Option.any_some]
    exact outside _ (List.getLast_mem nonempty)
  have dropped : (front ++ (word ++ trailing)).reverse.dropWhile past =
      word.reverse ++ front.reverse := by
    rw [List.reverse_append, List.reverse_append, List.append_assoc]
    exact Text.dropWhile_append_run (by simpa using passed) begins
  have taken : (word.reverse ++ front.reverse).takeWhile Text.isWord = word.reverse :=
    Text.takeWhile_append_run (by simpa using inside) (by rwa [List.head?_reverse])
  rw [lastWord, dropped, taken, List.reverse_reverse]

/-- The start of a type with parameters. -/
def parametersStart : Pattern Char :=
  all [wordEdge, text "type", gap, name, blanks, text "<"]

/-- Whether a text closes the parameters of a type: with a semicolon they are none, and a bracket
before an equals sign ends them. -/
def closesParameters : List Char → Bool
  | [] => false
  | c :: rest =>
      c == ';' || (c == '>' && (rest.dropWhile Text.isBlank).head? == some '=') ||
        closesParameters rest

/-- Whether a type in a text starts parameters that are not closed in it. -/
def leavesParametersOpen : Option Char → List Char → Bool
  | _, [] => false
  | before, c :: rest =>
      (match parametersStart.matchAt ⟨before, 0, c :: rest⟩ with
        | some found => !closesParameters ((c :: rest).drop found.length)
        | none => false) ||
        leavesParametersOpen (some c) rest

/-- Whether a heading of a kind behind a text can be read as part of an earlier declaration. -/
def Kind.isOpen (kind : Kind) (front : List Char) : Bool :=
  kind.words.any (fun word => word.toList == lastWord kind.isSeparator front) ||
    (kind == .typeAlias && leavesParametersOpen none front)

theorem exists_of_closesParameters {text : List Char} (closes : closesParameters text = true)
    (inside : ';' ∉ text) :
    ∃ left pad right, text = left ++ '>' :: (pad ++ '=' :: right) ∧
      ∀ c ∈ pad, Text.isBlank c = true := by
  induction text with
  | nil => cases closes
  | cons c text ih =>
    rw [closesParameters, Bool.or_eq_true, Bool.or_eq_true, Bool.and_eq_true, beq_iff_eq,
      beq_iff_eq, beq_iff_eq] at closes
    rcases closes with (rfl | ⟨rfl, equals⟩) | closes
    · simp at inside
    · obtain ⟨right, rest⟩ : ∃ right, text.dropWhile Text.isBlank = '=' :: right := by
        rw [List.head?_eq_some_iff] at equals
        exact equals
      refine ⟨[], text.takeWhile Text.isBlank, right, ?_, fun c member => ?_⟩
      · rw [← rest, List.takeWhile_append_dropWhile, List.nil_append]
      · exact List.mem_takeWhile_imp member
    · obtain ⟨left, pad, right, rfl, blank⟩ := ih closes (by simp_all)
      exact ⟨c :: left, pad, right, rfl, blank⟩

theorem leavesParametersOpen_append {front text : List Char} {before : Option Char}
    {found : Match Char} (nonempty : text ≠ [])
    (starts : parametersStart.matchAt ⟨lastOf before front, 0, text⟩ = some found)
    (unclosed : closesParameters (text.drop found.length) = false) :
    leavesParametersOpen before (front ++ text) = true := by
  induction front generalizing before with
  | nil =>
    obtain ⟨c, text, rfl⟩ := List.exists_cons_of_ne_nil nonempty
    have here : parametersStart.matchAt ⟨before, 0, c :: text⟩ = some found := starts
    rw [List.nil_append, leavesParametersOpen, here]
    simp [unclosed]
  | cons c front ih =>
    rw [lastOf_cons] at starts
    rw [List.cons_append, leavesParametersOpen, ih starts, Bool.or_true]

theorem head?_isBlank_of_isBindable {named : List Char} (bindable : Name.isBindable named = true)
    (rest : List Char) : (named ++ rest).head?.any Text.isBlank = false := by
  obtain ⟨⟨c, rest, rfl, head⟩, -⟩ := Name.isBindable_iff.mp bindable
  exact Name.isBlank_eq_false_of_isTail (Name.isTail_of_isHead head)

/-- What follows the parameters of a type. -/
def parametersEnd : Pattern Char :=
  all [text ">", blanks, text "="]

/-- A type with parameters is found with the shortest ones. -/
theorem matchAt_parameters {before : Option Char} {index : Nat}
    {separator named pad inner : List Char} (edge : before.any Text.isWord = false)
    (isGap : IsGap separator) (bindable : Name.isBindable named = true)
    (padded : ∀ c ∈ pad, Text.isBlank c = true) {found : Match Char}
    (starts : Kind.typeAlias.pattern.matchAt ⟨before, index,
      "type".toList ++ (separator ++ (named ++ (pad ++ '<' :: inner)))⟩ = some found) :
    ∃ captures, runFew (· != ';') (fun place => parametersEnd.run place captures
      fun after remembered => some ⟨index, after.index - index, remembered⟩) (some '<')
      (index + ("type".toList ++ (separator ++ (named ++ (pad ++ ['<'])))).length) inner =
        some found := by
  have parts : Kind.typeAlias.pattern = seq wordEdge (seq (text "type") (seq gap (seq (group 1 name)
      (seq blanks (seq (either (seq (text "<") (seq (few (· != ';')) (text ">"))) nothing)
        (seq blanks (text "="))))))) :=
    rfl
  rw [matchAt, parts, run_seq, run_wordEdge_append edge (by decide) (by decide), run_seq,
    run_text_append, run_seq, gap,
    run_several_append isGap.1 isGap.2 (head?_isBlank_of_isBindable bindable _), run_seq, run,
    run_name_append bindable (Name.head?_isTail_of_padded padded rfl _), run_seq, blanks,
    run_many_append padded rfl, run_seq, run] at starts
  have bracket : text "<" = one (· == '<') := rfl
  split at starts
  next result runs =>
    have start : index + "type".toList.length + separator.length + named.length + pad.length + 1 =
        index + ("type".toList ++ (separator ++ (named ++ (pad ++ ['<'])))).length := by
      simp only [List.length_append, List.length_singleton]
      omega
    rw [run_seq, bracket, run_one (· == '<') (by decide), run_seq, run] at runs
    dsimp only at runs
    rw [start, starts] at runs
    exact ⟨_, runs⟩
  next =>
    -- without parameters the equals sign would have to stand in place of the bracket
    change none = some found at starts
    cases starts

theorem passes_parametersEnd : Passes parametersEnd fun piece _ =>
    ∃ pad, (∀ c ∈ pad, Text.isBlank c = true) ∧ piece = '>' :: (pad ++ ['=']) := by
  have passes := (passes_text ">").all_cons (passes_blanks.all_cons
    ((passes_text "=").all_cons passes_all_nil))
  refine passes.congr fun piece rest => ?_
  constructor
  · rintro ⟨_, _, rfl, rfl, pad, _, rfl, ⟨padded, -⟩, _, _, rfl, rfl, rfl⟩
    exact ⟨pad, padded, rfl⟩
  · rintro ⟨pad, padded, rfl⟩
    exact ⟨['>'], _, rfl, rfl, pad, ['='], rfl, ⟨padded, rfl⟩, ['='], [], rfl, rfl, rfl⟩

/-- Between the bracket and the equals sign that end parameters there is no other equals sign. -/
theorem length_le_of_ending {left blank pad rest rest' : List Char}
    (padded : ∀ c ∈ pad, Text.isBlank c = true)
    (same : left ++ '>' :: (blank ++ ['=']) ++ rest = '>' :: (pad ++ ['=']) ++ rest') :
    ('>' :: (pad ++ ['='])).length ≤ (left ++ '>' :: (blank ++ ['='])).length := by
  rcases List.append_eq_append_iff.mp same with ⟨more, longer, -⟩ | ⟨more, longer, -⟩
  · rcases List.eq_nil_or_concat more with rfl | ⟨more, c, rfl⟩
    · rw [longer, List.append_nil]
    · have passed : '>' :: pad = left ++ '>' :: (blank ++ ['=']) ++ more := by
        rw [← List.cons_append, List.concat_eq_append, ← List.append_assoc] at longer
        exact (List.append_inj' longer rfl).1
      have member : '=' ∈ '>' :: pad := by
        rw [passed]
        simp
      rcases List.mem_cons.mp member with wrong | member
      · exact absurd wrong (by decide)
      · exact absurd (padded '=' member) (by decide)
  · rw [longer]
    simp

/-- The shortest parameters end no later than where they are closed. -/
theorem length_le_of_closesParameters {before : Option Char} {index : Nat}
    {separator named pad inner rest : List Char} (edge : before.any Text.isWord = false)
    (isGap : IsGap separator) (bindable : Name.isBindable named = true)
    (padded : ∀ c ∈ pad, Text.isBlank c = true) (inside : ';' ∉ inner)
    (closes : closesParameters inner = true) {found : Match Char}
    (starts : Kind.typeAlias.pattern.matchAt ⟨before, index,
      "type".toList ++ (separator ++ (named ++ (pad ++ '<' :: (inner ++ rest))))⟩ = some found) :
    found.length ≤ ("type".toList ++ (separator ++ (named ++ (pad ++ '<' :: inner)))).length := by
  obtain ⟨captures, runs⟩ := matchAt_parameters edge isGap bindable padded starts
  obtain ⟨left, blank, right, rfl, blanks⟩ := exists_of_closesParameters closes inside
  have accepted : ∀ c ∈ left, (c != ';') = true := by
    intro c member
    rw [bne_iff_ne]
    rintro rfl
    exact inside (List.mem_append_left _ member)
  have ending : '>' :: (blank ++ '=' :: right) ++ rest =
      '>' :: (blank ++ ['=']) ++ (right ++ rest) := by
    simp
  have closed (before : Option Char) (rest : List Char) :=
    (passes_parametersEnd before ('>' :: (blank ++ ['='])) rest []).mpr ⟨⟨blank, blanks, rfl⟩, rfl⟩
  rw [List.append_assoc, ending] at runs
  -- The search takes as few characters as it can, so it stops at the closing mark at the latest.
  obtain ⟨taken, left, rfl, ends⟩ :=
    exists_append_of_runFew accepted (isSome_run_of_spells rfl (closed _ _) rfl) runs
  obtain ⟨piece, rest', _, same, spells, ends⟩ := exists_spells_of_run ends
  obtain ⟨⟨pad', blanks', rfl⟩, rfl⟩ := (passes_parametersEnd _ _ _ _).mp spells
  have shorter := length_le_of_ending blanks' ((List.append_assoc _ _ _).trans same)
  have length : found.length = ("type".toList ++ (separator ++ (named ++ (pad ++ ['<'])))).length +
      taken.length + ('>' :: (pad' ++ ['='])).length := by
    rw [← Option.some.inj ends, Place.behind]
    dsimp only
    omega
  rw [length]
  simp only [List.length_append, List.length_cons, List.length_nil] at shorter ⊢
  omega

theorem matchAt_parametersStart {before : Option Char} {separator named pad : List Char}
    (edge : before.any Text.isWord = false) (isGap : IsGap separator)
    (bindable : Name.isBindable named = true) (padded : ∀ c ∈ pad, Text.isBlank c = true)
    (rest : List Char) :
    parametersStart.matchAt ⟨before, 0,
      "type".toList ++ (separator ++ (named ++ (pad ++ '<' :: rest)))⟩ =
        some ⟨0, ("type".toList ++ (separator ++ (named ++ (pad ++ ['<'])))).length, []⟩ := by
  have parts : parametersStart = seq wordEdge (seq (text "type") (seq gap (seq name
      (seq blanks (one (· == '<')))))) :=
    rfl
  rw [matchAt, parts, run_seq, run_wordEdge_append edge (by decide) (by decide), run_seq,
    run_text_append, run_seq, gap,
    run_several_append isGap.1 isGap.2 (head?_isBlank_of_isBindable bindable _), run_seq,
    run_name_append bindable (Name.head?_isTail_of_padded padded rfl _), run_seq, blanks,
    run_many_append padded rfl, run_one (· == '<') (by decide)]
  simp only [List.length_append, List.length_singleton, Option.some.injEq, Match.mk.injEq, true_and,
    and_true]
  omega

/-- A heading cannot stand inside the blanks and marks around the parameters of a type. -/
theorem exists_of_cut_closing {left right : List Char}
    (closes : Kind.typeAlias.Closes (left ++ right)) (begins : right.head? = some 't') :
    ∃ pad taken, left = pad ++ '<' :: taken ∧ (∀ c ∈ pad, Text.isBlank c = true) ∧
      ';' ∉ taken := by
  obtain ⟨right, rfl⟩ := List.head?_eq_some_iff.mp begins
  obtain ⟨pad, parameters, trailing, padded, isList, trails, same⟩ := closes
  have outside {text : List Char} (blank : ∀ c ∈ text, Text.isBlank c = true) : 't' ∉ text := by
    intro member
    exact absurd (blank 't' member) (by decide)
  -- The keyword starts with a `t`, so it stands neither in the blanks nor in the marks around the
  -- parameters.
  rcases isList with rfl | ⟨inner, inside, rfl⟩
  · have member : 't' ∈ left ++ 't' :: right := by simp
    rw [same] at member
    simp [outside padded, outside trails] at member
  · have marks : left ++ 't' :: right =
        (pad ++ ['<']) ++ (inner ++ '>' :: (trailing ++ ['='])) := by
      simp [same]
    rcases List.append_eq_append_iff.mp marks with ⟨more, split, rest⟩ | ⟨taken, rfl, rest⟩
    · cases more with
      | nil => exact ⟨pad, [], by simpa using split.symm, padded, by simp⟩
      | cons c more =>
        obtain ⟨rfl, -⟩ := List.cons.inj rest
        have member : 't' ∈ pad ++ ['<'] := by simp [split]
        simp [outside padded] at member
    · refine ⟨pad, taken, by simp, padded, fun member => ?_⟩
      rcases List.append_eq_append_iff.mp rest with ⟨more, rfl, ending⟩ | ⟨more, rfl, -⟩
      · have member : 't' ∈ '>' :: (trailing ++ ['=']) := by simp [ending]
        simp [outside trails] at member
      · exact inside (List.mem_append_left more member)

theorem leavesParametersOpen_of_cut {first separator named left right rest : List Char}
    {found : Match Char} (edge : (lastOf none first).any Text.isWord = false)
    (isGap : IsGap separator) (bindable : Name.isBindable named = true)
    (closes : Kind.typeAlias.Closes (left ++ right)) (begins : right.head? = some 't')
    (starts : Kind.typeAlias.pattern.matchAt ⟨lastOf none first, first.length,
      "type".toList ++ (separator ++ (named ++ (left ++ right ++ rest)))⟩ = some found)
    (covers : ("type".toList ++ (separator ++ (named ++ left))).length < found.length) :
    leavesParametersOpen none (first ++ ("type".toList ++ (separator ++ (named ++ left)))) =
      true := by
  obtain ⟨pad, taken, rfl, padded, inside⟩ := exists_of_cut_closing closes begins
  refine leavesParametersOpen_append (by simp)
    (matchAt_parametersStart edge isGap bindable padded taken) ?_
  have whole : "type".toList ++ (separator ++ (named ++ (pad ++ '<' :: taken))) =
      "type".toList ++ (separator ++ (named ++ (pad ++ ['<']))) ++ taken := by
    simp
  rw [whole, List.drop_left]
  by_contra closed
  rw [Bool.not_eq_false] at closed
  have shape : pad ++ '<' :: taken ++ right ++ rest = pad ++ '<' :: (taken ++ (right ++ rest)) := by
    simp
  rw [shape] at starts
  have short := length_le_of_closesParameters edge isGap bindable padded inside closed starts
  omega

/-! ## Finding headings -/

namespace Kind

/-- No keyword starts with a modifier of its kind, and no modifier with a keyword. -/
theorem modifier_ne_word {kind : Kind} {modifier word : String} (own : modifier ∈ kind.modifiers)
    (member : word ∈ kind.words) {rest rest' : List Char} :
    modifier.toList ++ rest ≠ word.toList ++ rest' := by
  have free : ∀ modifier ∈ kind.modifiers, ∀ word ∈ kind.words,
      ¬modifier.toList <+: word.toList ∧ ¬word.toList <+: modifier.toList := by
    cases kind <;> decide
  intro same
  have apart := free modifier own word member
  rcases List.append_eq_append_iff.mp same with ⟨more, longer, -⟩ | ⟨more, longer, -⟩
  · exact apart.1 ⟨more, longer.symm⟩
  · exact apart.2 ⟨more, longer.symm⟩

theorem isTail_of_mem_modifiers {kind : Kind} {word : String} (member : word ∈ kind.modifiers) :
    ∀ c ∈ word.toList, Name.isTail c = true := by
  revert word
  cases kind <;> decide

theorem isWord_eq_false_of_edge {text : Option Char} (edge : text.any Name.isTail = false) :
    text.any Text.isWord = false := by
  cases text with
  | none => rfl
  | some c =>
    rw [Option.any_some, Name.isTail, Bool.or_eq_false_iff] at edge
    exact edge.1

theorem Heads.head?_typeAlias {named back : List Char} (heads : typeAlias.Heads named back) :
    back.head? = some 't' := by
  obtain ⟨word, member, separator, closing, rest, -, -, -, -, rfl⟩ := heads
  obtain rfl := List.mem_singleton.mp member
  rfl

theorem Heads.ne_nil {kind : Kind} {named back : List Char} (heads : kind.Heads named back) :
    back ≠ [] := by
  obtain ⟨word, member, separator, closing, rest, -, -, -, -, rfl⟩ := heads
  simp [ne_nil_of_mem_words member]

/-- Behind the edge of a word a heading is spelled. -/
theorem Heads.exists_spells {kind : Kind} {named back : List Char} (heads : kind.Heads named back)
    {before : Option Char} (edge : before.any Text.isWord = false) :
    ∃ piece rest captures, back = piece ++ rest ∧
      kind.pattern.Spells before piece rest captures := by
  obtain ⟨word, member, separator, closing, rest, separates, bindable, stops, closes, rfl⟩ := heads
  refine ⟨word.toList ++ separator ++ (named ++ closing), rest, _, by simp, spells_pattern.mpr
    ⟨word.toList ++ separator, named, closing, rfl, ?_, ?_, bindable, stops, closes, rfl⟩⟩
  · obtain ⟨c, characters, spelled⟩ := List.exists_cons_of_ne_nil (ne_nil_of_mem_words member)
    have inside := isWord_of_mem_words member c (by simp [spelled])
    simp [edge, spelled, inside]
  · exact ⟨head?_isBlank_of_isBindable bindable _, [], word, member, separator, .inl rfl, separates,
      rfl⟩

/-- Past a modifier that was skipped, what remains of a match is a heading. -/
theorem Modifies.exists_skipped {kind : Kind} {modifier : List Char}
    (modifies : kind.Modifies modifier) {first skipped back text : List Char}
    {named : List Char} (heads : kind.Heads named back)
    (edge : (first ++ skipped).getLast?.any Name.isTail = false)
    (word_edge : first.getLast?.any Text.isWord = false)
    (same : skipped ++ back = modifier ++ text) :
    ∃ more, skipped = modifier ++ more ∧ more ++ back = text ∧
      (first ++ modifier).getLast?.any Text.isWord = false := by
  rcases modifies with rfl | ⟨word, own, gap, isGap, rfl⟩
  · exact ⟨skipped, rfl, same, by simpa using word_edge⟩
  · obtain ⟨keyword, member, separator, closing, rest, -, -, -, -, rfl⟩ := heads
    -- the heading starts with a keyword of its kind, which no modifier is
    have nonempty : skipped ≠ [] := by
      rintro rfl
      rw [List.nil_append, List.append_assoc] at same
      exact modifier_ne_word own member same.symm
    rw [List.getLast?_append_of_ne_nil _ nonempty] at edge
    rw [List.append_assoc] at same
    obtain ⟨more, rfl, behindWord⟩ :=
      Text.exists_append_of_getLast? same (isTail_of_mem_modifiers own) nonempty edge
    have begins : (keyword.toList ++ (separator ++ (named ++ (closing ++ rest)))).head?.any
        Text.isBlank = false := by
      obtain ⟨c, characters, spelled⟩ := List.exists_cons_of_ne_nil (ne_nil_of_mem_words member)
      have inside := isTail_of_mem_words member c (by simp [spelled])
      simp [spelled, Name.isBlank_eq_false_of_isTail inside]
    obtain ⟨more, rfl, behindGap⟩ := Text.exists_append_of_head? behindWord isGap.2 begins
    refine ⟨more, by simp, behindGap, ?_⟩
    rw [← List.append_assoc, List.getLast?_append_of_ne_nil _ isGap.1,
      List.getLast?_eq_some_getLast isGap.1, Option.any_some]
    exact Text.isWord_eq_false_of_isBlank (isGap.2 _ (List.getLast_mem isGap.1))

theorem Modifies.head?_isWord {kind : Kind} {modifier : List Char}
    (modifies : kind.Modifies modifier) {word : String} (member : word ∈ kind.words)
    (rest : List Char) : (modifier ++ (word.toList ++ rest)).head?.any Text.isWord = true := by
  have first : ∀ word ∈ kind.modifiers ++ kind.words,
      word.toList.head?.any Text.isWord = true := by
    cases kind <;> decide
  have starts {word : String} (own : word ∈ kind.modifiers ++ kind.words) (rest : List Char) :
      (word.toList ++ rest).head?.any Text.isWord = true := by
    have inside := first word own
    cases spelled : word.toList with
    | nil => simp [spelled] at inside
    | cons c characters => simpa [spelled] using inside
  rcases modifies with rfl | ⟨own, listed, gap, -, rfl⟩
  · exact starts (List.mem_append_right _ member) rest
  · rw [List.append_assoc]
    exact starts (List.mem_append_left _ listed) _

/-- A match that a heading's keyword ends up in as a name leaves its kind open. -/
theorem isOpen_of_word {kind : Kind} {word : String} (member : word ∈ kind.words)
    {front separator : List Char} (separates : kind.Separates separator)
    (edge : front.getLast?.any Text.isWord = false) :
    kind.isOpen (front ++ (word.toList ++ separator)) = true := by
  have last : lastWord kind.isSeparator (front ++ (word.toList ++ separator)) = word.toList :=
    lastWord_append (ne_nil_of_mem_words member) (isWord_of_mem_words member)
      (fun c own => isSeparator_eq_false_of_isTail (isTail_of_mem_words member c own))
      (isSeparator_of_separates separates) edge
  rw [isOpen, Bool.or_eq_true, List.any_eq_true]
  exact .inl ⟨word, member, by rw [last, beq_self_eq_true]⟩

/-- **Headings are found.** Behind a text that is not left open a heading's name is among the names
of its kind. -/
theorem Heads.mem_namesOf {kind : Kind} {named front back : List Char}
    (heads : kind.Heads named back) (edge : front.getLast?.any Name.isTail = false)
    (closed : kind.isOpen front = false) :
    String.ofList named ∈ namesOf kind.pattern (front ++ back) := by
  have before : (lastOf none front).any Text.isWord = false := by
    simpa [lastOf] using isWord_eq_false_of_edge edge
  obtain ⟨piece, rest, captures, text, spells⟩ := heads.exists_spells before
  -- Some match covers the start of the heading: it starts there, or `skipped` characters before it.
  obtain ⟨first, skipped, found, rfl, member, starts, covers⟩ :=
    exists_mem_allMatches_of_spells heads.ne_nil text spells
  obtain ⟨_, rest', _, same, spells', rfl⟩ := exists_spells_of_matchAt starts
  obtain ⟨_, other, closing, rfl, word_edge, ⟨stops, modifier, word, own, separator, modifies,
    separates, rfl⟩, bindable, bounded, closes, rfl⟩ := spells_pattern.mp spells'
  have first_edge : first.getLast?.any Text.isWord = false := by
    simp only [List.append_assoc, modifies.head?_isWord own, ne_eq, Bool.not_eq_true] at word_edge
    simpa [lastOf] using word_edge
  simp only [List.append_assoc] at same
  obtain ⟨more, rfl, remains, front_edge⟩ :=
    modifies.exists_skipped heads edge first_edge same
  have matched : other = named := by
    -- Past its modifier the match starts at the heading, or else it starts before it and reaches
    -- over its start. The second is what a text that is not left open rules out.
    by_cases here : more = []
    · subst here
      have heads' : kind.Heads other back :=
        ⟨word, own, separator, closing, rest', separates, bindable, bounded, closes, remains⟩
      exact heads'.named_eq heads
    · have more_edge : more.getLast?.any Name.isTail = false := by
        rwa [← List.append_assoc, List.getLast?_append_of_ne_nil _ here] at edge
      have inside : more.length <
          (word.toList ++ (separator ++ (other ++ closing))).length := by
        rcases covers with none | covers
        · simp [here] at none
        · simp only [List.length_append] at covers ⊢
          omega
      exfalso
      rcases heads.cut_cases own separates bindable here more_edge inside remains with
        rfl | ⟨left, right, rfl, nonempty, back_eq, rfl⟩
      · rw [← List.append_assoc, isOpen_of_word own separates front_edge] at closed
        cases closed
      · cases kind with
        -- only a type has something behind its name that a heading can stand in
        | typeAlias =>
          obtain rfl : modifier = [] := by
            rcases modifies with rfl | ⟨_, wrong, -⟩
            · rfl
            · cases wrong
          obtain rfl := List.mem_singleton.mp own
          have begins : right.head? = some 't' := by
            rw [← List.head?_append_of_ne_nil right nonempty, ← back_eq]
            exact heads.head?_typeAlias
          have unclosed := leavesParametersOpen_of_cut (by simpa [lastOf] using first_edge)
            separates bindable closes begins (by simpa [back_eq] using starts)
            (by simpa using inside)
          rw [isOpen, List.nil_append, unclosed, Bool.or_eq_false_iff] at closed
          cases closed.2
        | _ => exact nonempty (List.append_eq_nil_iff.mp closes).2
  rw [← matched]
  refine List.mem_filterMap.mpr ⟨_, member, ?_⟩
  simp [Match.piece?, Capture.piece]

theorem mem_declaredIn_of_mem_namesOf {kind : Kind} {text : List Char} {name : String}
    (found : name ∈ namesOf kind.pattern text) : name ∈ declaredIn text := by
  refine List.mem_append_left _ (List.mem_flatMap.mpr ⟨kind.pattern, ?_, found⟩)
  rw [namedDeclarations_eq]
  exact List.mem_map_of_mem (by cases kind <;> simp)

end Kind

end ImportSupply.Binding
