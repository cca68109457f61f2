import ImportSupply.Proofs.Binding.Destructuring
import ImportSupply.Proofs.Injection.Specification

/-!
# Names that are withdrawn

A candidate that a script withdraws as its own is declared in the masked script: by a heading, or
by a destructuring pattern in which it stands free (`declares_of_mem_declaredIn`). It is never part
of a longer name, unless it directly follows the word `function` (`Declares.standsFree`), which
needs no blank behind it.
-/

namespace ImportSupply.Binding

open Pattern

/-! ## Names that stand free -/

/-- A piece of a text that no part of a name adjoins. -/
def StandsFree (piece text : List Char) : Prop :=
  ∃ left right, text = left ++ (piece ++ right) ∧ left.getLast?.any Name.isTail = false ∧
    right.head?.any Name.isTail = false

namespace StandsFree

variable {piece text outer : List Char}

theorem refl (text : List Char) : StandsFree text text :=
  ⟨[], [], by simp, rfl, rfl⟩

theorem trans (inside : StandsFree piece text) (outside : StandsFree text outer) :
    StandsFree piece outer := by
  obtain ⟨left, right, rfl, before, after⟩ := inside
  obtain ⟨left', right', rfl, before', after'⟩ := outside
  refine ⟨left' ++ left, right ++ right', by simp, Text.getLast?_any_append_both before' before, ?_⟩
  by_cases empty : right = []
  · rwa [empty, List.nil_append]
  · rwa [List.head?_append_of_ne_nil _ empty]

theorem append_left {left : List Char} (edge : left.getLast?.any Name.isTail = false)
    (text : List Char) : StandsFree text (left ++ text) :=
  ⟨left, [], by simp, edge, rfl⟩

theorem append_right {right : List Char} (edge : right.head?.any Name.isTail = false)
    (text : List Char) : StandsFree text (text ++ right) :=
  ⟨[], right, by simp, rfl, edge⟩

variable {drop : Char → Bool}

theorem dropStart (outside : ∀ c, drop c = true → Name.isTail c = false) (text : List Char) :
    StandsFree (Text.dropStart drop text) text := by
  have edge : (text.takeWhile drop).getLast?.any Name.isTail = false := by
    rw [Option.any_eq_false]
    intro c last
    simpa using outside c (List.mem_takeWhile_imp (List.mem_of_getLast? last))
  have free := append_left edge (text.dropWhile drop)
  rwa [List.takeWhile_append_dropWhile] at free

theorem dropEnd (outside : ∀ c, drop c = true → Name.isTail c = false) (text : List Char) :
    StandsFree (Text.dropEnd drop text) text := by
  have whole : Text.dropEnd drop text ++ (text.reverse.takeWhile drop).reverse = text := by
    rw [Text.dropEnd, ← List.reverse_append, List.takeWhile_append_dropWhile, List.reverse_reverse]
  have edge : (text.reverse.takeWhile drop).reverse.head?.any Name.isTail = false := by
    rw [List.head?_reverse, Option.any_eq_false]
    intro c last
    simpa using outside c (List.mem_takeWhile_imp (List.mem_of_getLast? last))
  have free := append_right edge (Text.dropEnd drop text)
  rwa [whole] at free

theorem dropEnds (outside : ∀ c, drop c = true → Name.isTail c = false) (text : List Char) :
    StandsFree (Text.dropEnds drop text) text :=
  (dropEnd outside _).trans (dropStart outside text)

theorem trim (text : List Char) : StandsFree (Text.trim text) text :=
  dropEnds (fun _ => Name.isTail_eq_false_of_isBlank) text

theorem dropSpread (text : List Char) : StandsFree (dropSpread text) text := by
  fun_induction Binding.dropSpread text with
  | case1 rest ih =>
    have edge : ['.', '.', '.'].getLast?.any Name.isTail = false := by decide
    exact ih.trans (append_left edge rest)
  | case2 text => exact refl text

/-- What stands before a mark that is not part of a name. -/
theorem takeWhile {mark : Char} (outside : Name.isTail mark = false) (text : List Char) :
    StandsFree (text.takeWhile (· != mark)) text := by
  have edge : (text.dropWhile (· != mark)).head?.any Name.isTail = false := by
    rw [Option.any_eq_false]
    intro c first
    have stops := List.head?_dropWhile_not (· != mark) text
    rw [first] at stops
    have same : c = mark := by simpa using stops
    simp [same, outside]
  have free := append_right edge (text.takeWhile (· != mark))
  rwa [List.takeWhile_append_dropWhile] at free

theorem cutLast {mark : Char} (outside : Name.isTail mark = false) {sides : List Char × List Char}
    (cut : Text.cutLast [mark] text = some sides) : StandsFree sides.2 text := by
  have edge : (sides.1 ++ [mark]).getLast?.any Name.isTail = false := by
    rw [List.getLast?_concat]
    exact outside
  have free := append_left edge sides.2
  rwa [List.append_assoc, ← Text.eq_append_of_cutLast cut] at free

/-- The parts of a text between marks that are not part of a name. -/
theorem of_mem_intercalate {mark : Char} (outside : Name.isTail mark = false)
    {parts : List (List Char)} (member : piece ∈ parts) :
    StandsFree piece ([mark].intercalate parts) := by
  induction parts with
  | nil => cases member
  | cons part parts ih =>
    cases parts with
    | nil =>
      rw [List.intercalate_singleton, List.mem_singleton.mp member]
      exact refl part
    | cons next parts =>
      rw [List.intercalate_cons_cons]
      rcases List.mem_cons.mp member with rfl | member
      · have edge : ([mark] ++ [mark].intercalate (next :: parts)).head?.any Name.isTail = false :=
          outside
        rw [List.append_assoc]
        exact append_right edge piece
      · have edge : (part ++ [mark]).getLast?.any Name.isTail = false := by
          rw [List.getLast?_concat]
          exact outside
        exact (ih member).trans (append_left edge _)

theorem of_mem_splitOn {mark : Char} (outside : Name.isTail mark = false)
    (member : piece ∈ text.splitOn mark) : StandsFree piece text := by
  have free := of_mem_intercalate outside member
  rwa [List.intercalate_splitOn] at free

end StandsFree

/-! ## What declarations say -/

theorem isBindable_of_bindable? {text : List Char} {name : String}
    (said : bindable? text = some name) : Name.isBindable text = true ∧ name.toList = text := by
  rw [bindable?] at said
  split at said
  next bindable =>
    obtain rfl := Option.some.inj said
    exact ⟨bindable, String.toList_ofList⟩
  next => cases said

/-- The name that a part of a pattern binds stands free in it. -/
theorem standsFree_of_ofPart {part : List Char} {name : String} (said : ofPart part = some name) :
    Name.isBindable name.toList = true ∧ StandsFree name.toList part := by
  have brackets : ∀ c, (c == '[' || c == ']' || c == '{' || c == '}') = true →
      Name.isTail c = false := by
    intro c bracket
    simp only [Bool.or_eq_true, beq_iff_eq] at bracket
    rcases bracket with ((rfl | rfl) | rfl) | rfl <;> decide
  rw [ofPart] at said
  obtain ⟨bindable, same⟩ := isBindable_of_bindable? said
  rw [same]
  refine ⟨bindable, ((StandsFree.trim _).trans (StandsFree.dropEnds brackets _)).trans ?_⟩
  have target : StandsFree (Text.trim ((dropSpread (Text.trim part)).takeWhile (· != '='))) part :=
    (StandsFree.trim _).trans ((StandsFree.takeWhile (by decide) _).trans
      ((StandsFree.dropSpread _).trans (StandsFree.trim part)))
  split
  next sides cut =>
    exact (StandsFree.trim _).trans ((StandsFree.cutLast (by decide) cut).trans target)
  next => exact target

/-- The names that a destructuring pattern binds stand free in it. -/
theorem standsFree_of_mem_ofDestructuring {body : List Char} {name : String}
    (said : name ∈ ofDestructuring body) :
    Name.isBindable name.toList = true ∧ StandsFree name.toList body := by
  obtain ⟨part, member, said⟩ := List.mem_filterMap.mp said
  obtain ⟨bindable, free⟩ := standsFree_of_ofPart said
  exact ⟨bindable, free.trans (StandsFree.of_mem_splitOn (by decide) member)⟩

/-- A text that declares a name, not from within a word: by a heading, or by a destructuring pattern
in which the name stands free. -/
inductive Declares (text named : List Char) : Prop where
  | heading {kind : Kind} {front back : List Char} (split : text = front ++ back)
      (edge : front.getLast?.any Text.isWord = false) (heads : kind.Heads named back)
  | pattern {bracket : Bracket} {front piece rest body : List Char}
      (split : text = front ++ (piece ++ rest)) (edge : front.getLast?.any Text.isWord = false)
      (destructures : Destructures bracket body piece) (bindable : Name.isBindable named = true)
      (free : StandsFree named body)

theorem Kind.Modifies.getLast?_isWord {kind : Kind} {modifier : List Char}
    (modifies : kind.Modifies modifier) : modifier.getLast?.any Text.isWord = false := by
  rcases modifies with rfl | ⟨word, -, gap, isGap, rfl⟩
  · rfl
  · exact Text.getLast?_any_append isGap.1 fun c member =>
      Text.isWord_eq_false_of_isBlank (isGap.2 c member)

/-- The names in the matches of a kind are those of headings. -/
theorem Kind.declares_of_mem_namesOf {kind : Kind} {text : List Char} {name : String}
    (said : name ∈ namesOf kind.pattern text) : Declares text name.toList := by
  obtain ⟨found, member, said⟩ := List.mem_filterMap.mp said
  obtain ⟨front, piece, rest, captures, rfl, spells, rfl⟩ := exists_spells_of_mem_allMatches member
  obtain ⟨_, named, closing, rfl, wordEdge, ⟨-, modifier, word, own, separator, modifies,
    separates, rfl⟩, bindable, stops, closes, rfl⟩ := spells_pattern.mp spells
  obtain rfl : name = String.ofList named := by
    simpa [Match.piece?, Capture.piece] using said.symm
  have edge : front.getLast?.any Text.isWord = false := by
    simp only [List.append_assoc, modifies.head?_isWord own, ne_eq, Bool.not_eq_true] at wordEdge
    simpa [lastOf] using wordEdge
  have edge' : (front ++ modifier).getLast?.any Text.isWord = false :=
    Text.getLast?_any_append_both edge modifies.getLast?_isWord
  rw [String.toList_ofList]
  exact .heading (by simp) edge'
    ⟨word, own, separator, closing, rest, separates, bindable, stops, closes, rfl⟩

/-- Every name that is found is declared. -/
theorem declares_of_mem_declaredIn {text : List Char} {name : String}
    (said : name ∈ declaredIn text) : Declares text name.toList := by
  rcases List.mem_append.mp said with said | said
  · obtain ⟨pattern, member, said⟩ := List.mem_flatMap.mp said
    rw [Kind.namedDeclarations_eq] at member
    obtain ⟨kind, -, rfl⟩ := List.mem_map.mp member
    exact Kind.declares_of_mem_namesOf said
  · obtain ⟨found, member, said⟩ := List.mem_flatMap.mp said
    obtain ⟨front, piece, rest, captures, rfl, spells, rfl⟩ :=
      exists_spells_of_mem_allMatches member
    obtain ⟨edge, bracket, body, destructures, names⟩ := exists_destructures_of_spells spells
    rw [names] at said
    obtain ⟨bindable, free⟩ := standsFree_of_mem_ofDestructuring said
    exact .pattern rfl (by simpa [lastOf] using edge) destructures bindable free

theorem Declares.isBindable {text named : List Char} (declares : Declares text named) :
    Name.isBindable named = true := by
  cases declares with
  | heading split edge heads =>
    obtain ⟨word, own, separator, closing, rest, separates, bindable, -⟩ := heads
    exact bindable
  | pattern split edge destructures bindable free => exact bindable

/-- A declared name is not part of a longer one, unless that starts with the word `function`. -/
theorem Declares.standsFree {text named : List Char} (declares : Declares text named) :
    StandsFree named text ∨
      ∃ front rest, front.getLast?.any Text.isWord = false ∧ rest.head?.any Name.isTail = false ∧
        text = front ++ ("function".toList ++ (named ++ rest)) := by
  cases declares with
  | @heading kind front _ split edge heads =>
    obtain ⟨word, own, separator, closing, rest, separates, bindable, stops, closes, rfl⟩ := heads
    -- Only a function can have its name directly behind its keyword.
    by_cases adjoins : separator = []
    · right
      obtain rfl : kind = .function := by
        cases kind with
        | function => rfl
        | _ => exact absurd adjoins separates.1
      obtain rfl := List.mem_singleton.mp own
      exact ⟨front, closing ++ rest, edge, stops, by simpa [adjoins] using split⟩
    · left
      have outside : ∀ c ∈ separator, Name.isTail c = false := by
        intro c member
        have separator := Kind.isSeparator_of_separates separates c member
        by_contra tail
        rw [Kind.isSeparator_eq_false_of_isTail (by simpa using tail)] at separator
        cases separator
      have edge' : (front ++ (word.toList ++ separator)).getLast?.any Name.isTail = false := by
        rw [← List.append_assoc]
        exact Text.getLast?_any_append adjoins outside
      exact ⟨front ++ (word.toList ++ separator), closing ++ rest, by simp [split], edge', stops⟩
  | @pattern bracket front _ rest body split edge destructures bindable free =>
    left
    obtain ⟨-, word, known, between, pad, -, -, rfl⟩ := destructures
    refine free.trans ⟨front ++ (word.toList ++ (between ++ [bracket.opening])),
      bracket.closing :: (pad ++ '=' :: rest), by simp [split], ?_, ?_⟩
    · simp only [← List.append_assoc, List.getLast?_concat]
      cases bracket <;> decide
    · cases bracket <;> rfl

/-! ## Scripts -/

/-- A candidate that a script withdraws is declared in the masked script, and it is not part of a
longer name there, unless that starts with the word `function`. -/
theorem declares_of_withdrawn {script : List Char} {candidates : List String} {name : String}
    (candidate : name ∈ candidates) (withdrawn : name ∉ withoutDeclared script candidates) :
    Declares (Literal.mask script) name.toList ∧
      (StandsFree name.toList (Literal.mask script) ∨
        ∃ front rest, front.getLast?.any Text.isWord = false ∧
          rest.head?.any Name.isTail = false ∧
          Literal.mask script = front ++ ("function".toList ++ (name.toList ++ rest))) := by
  have found : name ∈ declared script := by
    by_contra absent
    exact withdrawn (mem_withoutDeclared.mpr ⟨candidate, absent⟩)
  have declares := declares_of_mem_declaredIn found
  exact ⟨declares, declares.standsFree⟩

/-- A dollar sign is part of a name, but a keyword behind it still counts as one. -/
theorem declares_of_withdrawn_dollar :
    "foo" ∈ ["foo"] ∧ "foo" ∉ withoutDeclared "$let\nfoo = 1".toList ["foo"] ∧
      Declares (Literal.mask "$let\nfoo = 1".toList) "foo".toList :=
  have withdrawn : "foo" ∉ withoutDeclared "$let\nfoo = 1".toList ["foo"] := by decide +kernel
  ⟨by decide, withdrawn, (declares_of_withdrawn (by decide) withdrawn).1⟩

/-- The rest of a name that starts with `function` is withdrawn, although no word of the script is
a keyword. -/
theorem withdrawn_without_keyword :
    withoutDeclared "functionName()".toList ["Name"] = [] ∧ ∀ kind : Kind, ∀ word ∈ kind.words,
      word ∉ (Word.ofText (Literal.mask "functionName()".toList)).map Word.name := by
  refine ⟨by decide +kernel, fun kind => ?_⟩
  cases kind <;> decide +kernel

end ImportSupply.Binding
