import ImportSupply.Proofs.Use.Words

/-!
# Where words stand

A word of a text stands somewhere in it: between two texts that do not continue its run, and behind
as many dots as it counts (`Word.StandsBetween`). The words of a text are exactly what stands so in
it (`Word.mem_ofText_iff`), and such a word parts the words of its text into those before it and
those behind it (`Word.StandsBetween.ofText_eq`). The reader of words carries a run that is not
finished yet, so the inductions are on what is left to read, for any run that starts where what was
read ends.
-/

namespace ImportSupply.Word

/-- How many dots a text ends with. -/
def dotsAtEnd (text : List Char) : Nat :=
  (text.reverse.takeWhile (· == '.')).length

/-- A word that is all of a run between two texts. -/
structure StandsBetween (word : Word) (front back : List Char) : Prop where
  nonempty : word.characters ≠ []
  inside : ∀ c ∈ word.characters, Name.isRunChar c = true
  starts : front.getLast?.any Name.isRunChar = false
  ends : back.head?.any Name.isRunChar = false
  dots : word.dots = dotsAtEnd front

theorem dotsAtEnd_append_singleton (text : List Char) (c : Char) :
    dotsAtEnd (text ++ [c]) = if c == '.' then dotsAtEnd text + 1 else 0 := by
  unfold dotsAtEnd
  rw [List.reverse_append, List.reverse_singleton, List.singleton_append, List.takeWhile_cons]
  split
  · rw [List.length_cons]
  · rfl

/-- A text that ends inside a run ends with no dot. -/
theorem dotsAtEnd_eq_zero {text : List Char} {c : Char} (run : Name.isRunChar c = true) :
    dotsAtEnd (text ++ [c]) = 0 := by
  have noDot : c ≠ '.' := by
    rintro rfl
    revert run
    decide
  rw [dotsAtEnd_append_singleton, if_neg (by simpa using noDot)]

/-- A text with a run behind it ends with no dot, unless the run is empty. -/
theorem dotsAtEnd_append_run (front : List Char) {reversed : List Char}
    (inside : ∀ c ∈ reversed, Name.isRunChar c = true) :
    dotsAtEnd (front ++ reversed.reverse) = if reversed.isEmpty then dotsAtEnd front else 0 := by
  cases reversed with
  | nil => simp
  | cons d reversed =>
    rw [List.reverse_cons, ← List.append_assoc, dotsAtEnd_eq_zero (inside d List.mem_cons_self)]
    rfl

/-- Behind a character outside a run the reader counts the dots that its text ends with. -/
theorem dots_eq_dotsAtEnd {front reversed : List Char}
    (inside : ∀ c ∈ reversed, Name.isRunChar c = true) (c : Char) :
    (if c == '.' then (if reversed.isEmpty then dotsAtEnd front else 0) + 1 else 0) =
      dotsAtEnd (front ++ reversed.reverse ++ [c]) := by
  rw [dotsAtEnd_append_singleton, dotsAtEnd_append_run front inside]

/-- The word that ends where an unfinished run does. -/
theorem standsBetween_of_mem_finish {word : Word} {front reversed back : List Char}
    (starts : front.getLast?.any Name.isRunChar = false)
    (inside : ∀ c ∈ reversed, Name.isRunChar c = true)
    (ends : back.head?.any Name.isRunChar = false)
    (member : word ∈ finish (dotsAtEnd front) reversed) :
    word.characters = reversed.reverse ∧ word.StandsBetween front back := by
  unfold finish at member
  split at member
  next => cases member
  next nonempty =>
    rw [List.isEmpty_iff] at nonempty
    obtain rfl := List.mem_singleton.mp member
    exact ⟨rfl, by simpa using nonempty, by simpa using inside, starts, ends, rfl⟩

/-- A word that is read from inside a run stands in the text that the run belongs to. -/
theorem standsBetween_of_mem_readFrom {word : Word} {front reversed text : List Char}
    (starts : front.getLast?.any Name.isRunChar = false)
    (inside : ∀ c ∈ reversed, Name.isRunChar c = true)
    (member : word ∈ readFrom (dotsAtEnd front) reversed text) :
    ∃ more back, front ++ (reversed.reverse ++ text) = more ++ (word.characters ++ back) ∧
      word.StandsBetween more back := by
  -- The run that is being read is kept in reverse, so each character moves from the text to its
  -- front.
  induction text generalizing front reversed with
  | nil =>
    rw [readFrom] at member
    obtain ⟨characters, stands⟩ := @standsBetween_of_mem_finish _ _ _ [] starts inside rfl member
    exact ⟨front, [], by rw [characters], stands⟩
  | cons c text ih =>
    rw [readFrom] at member
    split at member
    next run =>
      have later := ih starts (List.forall_mem_cons.mpr ⟨run, inside⟩) member
      rwa [List.reverse_cons, List.append_assoc, List.singleton_append] at later
    next outside =>
      rw [List.mem_append, dots_eq_dotsAtEnd inside] at member
      rcases member with finished | later
      · obtain ⟨characters, stands⟩ := @standsBetween_of_mem_finish _ _ _ (c :: text) starts
          inside (by simpa using outside) finished
        exact ⟨front, c :: text, by rw [characters], stands⟩
      · obtain ⟨more, back, same, stands⟩ :=
          ih (by simpa using outside) (List.forall_mem_nil _) later
        exact ⟨more, back, by simpa using same, stands⟩

/-- What is read from a text in two parts, between which no run goes on: the words of the first part,
and those of the second behind the dots that the first ends with. -/
theorem readFrom_append {front reversed text back : List Char}
    (inside : ∀ c ∈ reversed, Name.isRunChar c = true)
    (apart : (front ++ reversed.reverse ++ text).getLast?.any Name.isRunChar = false ∨
      back.head?.any Name.isRunChar = false) :
    readFrom (dotsAtEnd front) reversed (text ++ back) =
      readFrom (dotsAtEnd front) reversed text ++
        readFrom (dotsAtEnd (front ++ reversed.reverse ++ text)) [] back := by
  induction text generalizing front reversed with
  | nil =>
    rw [List.append_nil] at apart ⊢
    rw [dotsAtEnd_append_run front inside, List.nil_append]
    cases reversed with
    | nil => rfl
    | cons d reversed =>
      -- the run is not over where the first part ends, so the second does not go on with it
      have ends : back.head?.any Name.isRunChar = false := by
        rcases apart with outside | ends
        · simp [inside d List.mem_cons_self] at outside
        · exact ends
      cases back with
      | nil => simp [readFrom, finish]
      | cons c back =>
        have outside : ¬Name.isRunChar c = true := by simpa using ends
        rw [readFrom, readFrom, readFrom, if_neg outside, if_neg outside]
        simp [finish]
  | cons c text ih =>
    rw [List.cons_append, readFrom, readFrom]
    split
    next run =>
      have whole : front ++ reversed.reverse ++ c :: text =
          front ++ (c :: reversed).reverse ++ text := by
        simp
      rw [whole] at apart ⊢
      exact ih (List.forall_mem_cons.mpr ⟨run, inside⟩) apart
    next =>
      have whole : front ++ reversed.reverse ++ c :: text =
          front ++ reversed.reverse ++ [c] ++ ([] : List Char).reverse ++ text := by
        simp
      rw [whole] at apart ⊢
      dsimp only
      rw [dots_eq_dotsAtEnd inside, ih (List.forall_mem_nil _) apart]
      exact (List.append_assoc _ _ _).symm

theorem ofText_append {front back : List Char}
    (apart : front.getLast?.any Name.isRunChar = false ∨ back.head?.any Name.isRunChar = false) :
    ofText (front ++ back) = ofText front ++ readFrom (dotsAtEnd front) [] back :=
  @readFrom_append [] [] front back (List.forall_mem_nil _) apart

/-- A word parts the words of its text into those before it and those behind it. -/
theorem StandsBetween.ofText_eq {word : Word} {front back : List Char}
    (stands : word.StandsBetween front back) :
    ofText (front ++ (word.characters ++ back)) = ofText front ++ word :: ofText back := by
  have own : readFrom (dotsAtEnd front) [] word.characters = [word] := by
    rw [readFrom_run stands.inside, finish, ← stands.dots]
    simp [stands.nonempty]
  have none : dotsAtEnd (front ++ word.characters) = 0 := by
    have zero := @dotsAtEnd_append_run front word.characters.reverse (by simpa using stands.inside)
    simpa [stands.nonempty] using zero
  have parted := @readFrom_append front [] word.characters back (List.forall_mem_nil _)
    (.inr stands.ends)
  rw [List.reverse_nil, List.append_nil, own, none] at parted
  rw [ofText_append (.inl stands.starts), parted]
  rfl

/-- The words of a text are those that stand in it. -/
theorem mem_ofText_iff {word : Word} {text : List Char} :
    word ∈ ofText text ↔
      ∃ front back, text = front ++ (word.characters ++ back) ∧ word.StandsBetween front back := by
  constructor
  · intro member
    exact @standsBetween_of_mem_readFrom word [] [] text rfl (List.forall_mem_nil _) member
  · rintro ⟨front, back, rfl, stands⟩
    rw [stands.ofText_eq]
    exact List.mem_append_right _ List.mem_cons_self

end ImportSupply.Word
