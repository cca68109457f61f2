import ImportSupply.Proofs.Literal.Provenance
import ImportSupply.Proofs.Use.Occurrence

/-!
# Uses are code, but for one

What is used in a masked script was scanned as executable code, with one exception: the `$` that
opens an interpolation shows, and stands there as a word of its own. A run of name characters that
shows is therefore either code throughout or that one character (`code_or_opening`), and both kinds
count as uses (`mem_usedNames_mask`).
-/

namespace ImportSupply

namespace Literal

/-- A text that a scan reads as executable code, character by character, if another one follows. -/
def CodeThroughout (scanner : Scanner) (text back : List Char) : Prop :=
  ∀ front c rest, text = front ++ c :: rest →
    IsCode (scanner.behind front (c :: (rest ++ back))) c (rest ++ back)

theorem CodeThroughout.cons {scanner next : Scanner} {c : Char} {text back : List Char}
    {role : Role} (taken : Transition scanner c (text ++ back) role next)
    (isCode : IsCode scanner c (text ++ back)) (later : CodeThroughout next text back) :
    CodeThroughout scanner (c :: text) back := by
  intro front d rest split
  cases front with
  | nil =>
    obtain ⟨rfl, rfl⟩ := List.cons.inj split
    exact isCode
  | cons e front =>
    obtain ⟨rfl, behind⟩ := List.cons.inj split
    have same : front ++ d :: (rest ++ back) = text ++ back := by
      rw [behind]
      simp
    rw [Scanner.behind, same, taken.step_eq]
    exact later front d rest behind

/-- A stretch of a script, from a place on, at whose every character the scan stops in executable
code. -/
def ReadAsCode (script : List Char) (place count : Nat) : Prop :=
  ∀ offset < count, ∃ cursor, Cursor.Visits script cursor ∧ cursor.place = place + offset ∧
    (Mode.top cursor.stack).isExecutable = true

theorem CodeThroughout.readAsCode {front text back : List Char}
    (code : CodeThroughout (Scanner.reached front (text ++ back)) text back) :
    ReadAsCode (front ++ (text ++ back)) front.length text.length := by
  intro offset inside
  obtain ⟨before, c, rest, rfl, rfl⟩ : ∃ before c rest, text = before ++ c :: rest ∧
      before.length = offset :=
    ⟨text.take offset, _, _, (List.take_append_drop offset text).symm.trans
      (congrArg (text.take offset ++ ·) (List.drop_eq_getElem_cons inside)), by simp; omega⟩
  have isCode := code before c rest rfl
  have whole : front ++ (before ++ c :: rest ++ back) =
      front ++ before ++ c :: (rest ++ back) := by simp
  have reached : (Scanner.reached front (before ++ c :: rest ++ back)).behind before
      (c :: (rest ++ back)) = Scanner.reached (front ++ before) (c :: (rest ++ back)) := by
    rw [Scanner.reached, Scanner.reached, Scanner.behind_append]
    simp
  rw [reached, ← Scanner.stateAt_append] at isCode
  rw [whole, ← List.length_append]
  obtain ⟨cursor, visited, here⟩ := (Cursor.exists_visits_iff (by simp)).mpr isCode.settled
  refine ⟨cursor, visited, here, ?_⟩
  rw [← visited.meets.stack, here]
  exact isCode.executable

/-- A run that a masked text shows is code, or the opening of an interpolation. -/
theorem code_or_opening {scanner : Scanner} {text back word shown : List Char}
    (expectant : Expectant scanner (text ++ back)) (long : word.length = text.length)
    (inside : ∀ c ∈ word, Name.isRunChar c = true)
    (shows : scanner.shown (text ++ back) = word ++ shown) :
    word = text ∧ CodeThroughout scanner text back ∨
      word = ['$'] ∧ text = ['$'] ∧ Opens scanner '$' back := by
  induction text generalizing scanner word with
  | nil =>
    refine .inl ⟨List.length_eq_zero_iff.mp long, fun front c rest split => ?_⟩
    simp at split
  | cons c text ih =>
    obtain ⟨d, word, rfl⟩ := List.exists_cons_of_length_eq_add_one long
    obtain ⟨run, others⟩ := List.forall_mem_cons.mp inside
    obtain ⟨role, next, taken⟩ :=
      expectant.formed.exists_transition scanner.pending c (text ++ back)
    rw [List.cons_append, taken.shown_cons, List.cons_append] at shows
    obtain ⟨rfl, tail⟩ := List.cons.inj shows
    rcases taken.shown_cases expectant with isCode | opens | separator
    · have role : role = .code := by
        have role := isCode.role
        rwa [taken.step_eq] at role
      subst role
      rcases ih (taken.expectant expectant) (Nat.succ.inj long) others tail with
        ⟨rfl, code⟩ | ⟨-, -, opens⟩
      · exact .inl ⟨rfl, .cons taken isCode code⟩
      · exact absurd opens (isCode.not_opens taken)
    · obtain ⟨rfl, pending⟩ := opens.role_eq taken
      obtain rfl := opens.dollar
      cases text with
      | nil =>
        obtain rfl := List.length_eq_zero_iff.mp (Nat.succ.inj long)
        exact .inr ⟨rfl, rfl, opens⟩
      | cons e text =>
        -- the brace that follows shows too, and is in no run
        obtain rfl : e = '{' := by simpa using opens.brace
        obtain ⟨f, word, rfl⟩ := List.exists_cons_of_length_eq_add_one (Nat.succ.inj long)
        obtain ⟨stack, _⟩ := next
        obtain rfl : _ = [Role.delimiter] := pending
        rw [List.cons_append, (Transition.decided _ _ _ _ _).shown_cons] at tail
        obtain rfl : '{' = f := (List.cons.inj tail).1
        exact absurd (others '{' List.mem_cons_self) (by decide)
    · rw [(Word.isSeparator_iff.mp separator).1] at run
      cases run

/-- What precedes an opening shows as a text that ends with a separator. -/
theorem exists_separator_of_opens {front back : List Char} {c : Char}
    (opens : Opens (Scanner.start.behind front (c :: back)) c back) :
    ∃ shown separator, Word.isSeparator separator = true ∧
      mask (front ++ c :: back) =
        shown ++ separator :: (Scanner.start.behind front (c :: back)).shown (c :: back) := by
  rcases List.eq_nil_or_concat front with rfl | ⟨front, d, rfl⟩
  · cases opens.template
  · rw [List.concat_eq_append] at opens ⊢
    rw [Scanner.behind_append] at opens ⊢
    have before := (Expectant.start (front ++ d :: c :: back)).behind
    obtain ⟨shown, -, shows⟩ := Scanner.start.exists_shown_append front (d :: c :: back)
    rw [List.singleton_append] at opens ⊢
    generalize Scanner.start.behind front (d :: c :: back) = scanner at before shows opens ⊢
    obtain ⟨role, next, taken⟩ :=
      before.formed.exists_transition scanner.pending d (c :: back)
    have reached : scanner.behind [d] (c :: back) = next := by
      rw [Scanner.behind, List.nil_append, taken.step_eq]
      rfl
    rw [reached] at opens ⊢
    refine ⟨shown, role.display d, taken.isSeparator_of_opens before opens, ?_⟩
    rw [mask_eq_shown, List.append_assoc, List.singleton_append, shows, taken.shown_cons]

end Literal

/-! ## Uses -/

/-- A name that stands free in a masked script, and was scanned as executable code there. -/
def UsedInCode (script name : List Char) : Prop :=
  ∃ front back shown more, script = front ++ (name ++ back) ∧ shown.length = front.length ∧
    Literal.mask script = shown ++ (name ++ more) ∧
    (∃ word : Word, word.characters = name ∧ word.isFree = true ∧ word.StandsBetween shown more) ∧
    Literal.CodeThroughout (Literal.Scanner.reached front (name ++ back)) name back ∧
    Literal.ReadAsCode script front.length name.length

/-- A script in which an interpolation opens. -/
def HasInterpolation (script : List Char) : Prop :=
  ∃ front back, script = front ++ '$' :: back ∧
    Literal.Opens (Literal.Scanner.start.behind front ('$' :: back)) '$' back

/-- A free word of a masked script is used in code, or opens an interpolation. -/
theorem usedInCode_of_mem {script : List Char} {word : Word}
    (member : word ∈ Word.ofText (Literal.mask script)) (free : word.isFree = true) :
    UsedInCode script word.characters ∨ word.characters = ['$'] ∧ HasInterpolation script := by
  obtain ⟨shown, more, shows, stands⟩ := Word.mem_ofText_iff.mp member
  have long : (shown ++ (word.characters ++ more)).length = script.length := by
    rw [← shows, Literal.length_mask]
  simp only [List.length_append] at long
  -- Masking keeps the length, so the word's place in the masked text is a place in the script.
  obtain ⟨front, text, back, rfl, sameFront, sameText⟩ : ∃ front text back,
      script = front ++ (text ++ back) ∧ shown.length = front.length ∧
        word.characters.length = text.length := by
    refine ⟨script.take shown.length, (script.drop shown.length).take word.characters.length,
      (script.drop shown.length).drop word.characters.length, ?_, ?_, ?_⟩
    · rw [List.take_append_drop, List.take_append_drop]
    · rw [List.length_take]
      omega
    · rw [List.length_take, List.length_drop]
      omega
  obtain ⟨shown', long', shows'⟩ :=
    Literal.Scanner.start.exists_shown_append front (text ++ back)
  have parts := shows.symm.trans ((Literal.mask_eq_shown _).trans shows')
  obtain ⟨rfl, here⟩ := List.append_inj parts (sameFront.trans long'.symm)
  have expectant := (Literal.Expectant.start (front ++ (text ++ back))).behind
  rcases Literal.code_or_opening expectant sameText stands.inside here.symm with
    ⟨same, code⟩ | ⟨dollar, rfl, opens⟩
  · left
    rw [← same] at code shows
    rw [← same]
    exact ⟨front, back, shown, more, rfl, sameFront, shows, ⟨word, rfl, free, stands⟩, code,
      code.readAsCode⟩
  · exact .inr ⟨dollar, front, back, rfl, opens⟩

/-- The opening of an interpolation is a free word. -/
theorem mem_ofText_of_hasInterpolation {script : List Char}
    (opening : HasInterpolation script) : ⟨0, ['$']⟩ ∈ Word.ofText (Literal.mask script) := by
  obtain ⟨front, back, rfl, opens⟩ := opening
  obtain ⟨shown, separator, separates, shows⟩ := Literal.exists_separator_of_opens opens
  obtain ⟨outside, noDot⟩ := Word.isSeparator_iff.mp separates
  have expectant := (Literal.Expectant.start (front ++ '$' :: back)).behind
  generalize Literal.Scanner.start.behind front ('$' :: back) = scanner at opens shows expectant
  obtain ⟨role, next, taken⟩ := expectant.formed.exists_transition scanner.pending '$' back
  obtain ⟨rfl, pending⟩ := opens.role_eq taken
  obtain ⟨back, rfl⟩ := List.head?_eq_some_iff.mp opens.brace
  obtain ⟨stack, _⟩ := next
  obtain rfl : _ = [Literal.Role.delimiter] := pending
  rw [taken.shown_cons, (Literal.Transition.decided _ _ _ _ _).shown_cons] at shows
  refine Word.mem_ofText_iff.mpr
    ⟨shown ++ [separator], '{' :: Literal.Scanner.shown ⟨stack, []⟩ back, ?_, ?_⟩
  · rw [shows, List.append_assoc]
    rfl
  · refine ⟨by simp, by decide, ?_, ?_, ?_⟩
    · simpa using outside
    · rw [List.head?_cons, Option.any_some]
      decide
    · rw [Word.dotsAtEnd_append_singleton, if_neg (by simpa using noDot)]

/-- **What counts as used in a masked script.** A known name is used exactly if it stands free in
code, every character of it scanned as executable code, or if it is `$` and the script opens an
interpolation. -/
theorem mem_usedNames_mask {known : String → Bool} {script : List Char} {name : String} :
    name ∈ usedNames known (Literal.mask script) ↔
      known name = true ∧
        (UsedInCode script name.toList ∨ name = "$" ∧ HasInterpolation script) := by
  rw [mem_usedNames]
  refine and_congr_right fun _ => ?_
  constructor
  · rintro ⟨word, member, free, rfl⟩
    rw [Word.name, String.toList_ofList]
    rcases usedInCode_of_mem member free with used | ⟨dollar, opening⟩
    · exact .inl used
    · exact .inr ⟨by rw [dollar], opening⟩
  · rintro (⟨front, back, shown, more, -, -, shows, ⟨word, characters, free, stands⟩, -⟩ |
      ⟨rfl, opening⟩)
    · refine ⟨word, Word.mem_ofText_iff.mpr ⟨shown, more, ?_, stands⟩, free, ?_⟩
      · rw [shows, characters]
      · rw [Word.name, characters, String.ofList_toList]
    · exact ⟨⟨0, ['$']⟩, mem_ofText_of_hasInterpolation opening, rfl, rfl⟩

/-- The opening of an interpolation alone makes `$` used: nothing in the script is scanned as code
that could be that name. -/
theorem usedNames_mask_template :
    usedNames (· == "$") (Literal.mask "\x60$\x7ba\x7d\x60".toList) = ["$"] ∧
      ¬UsedInCode "\x60$\x7ba\x7d\x60".toList ['$'] := by
  refine ⟨by decide +kernel, ?_⟩
  rintro ⟨front, back, -, -, split, -, -, -, code, -⟩
  have isCode := code [] '$' [] rfl
  match front, split with
  | [], split => cases split
  | ['\x60'], split =>
    obtain rfl : "\x7ba\x7d\x60".toList = back := (List.cons.inj (List.cons.inj split).2).2
    cases isCode.executable
  | _ :: _ :: front, split =>
    have later : "\x7ba\x7d\x60".toList = front ++ (['$'] ++ back) :=
      (List.cons.inj (List.cons.inj split).2).2
    have member : '$' ∈ "\x7ba\x7d\x60".toList := by simp [later]
    revert member
    decide

end ImportSupply
