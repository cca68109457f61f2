import ImportSupply.Proofs.Pattern.Run
import Mathlib.Data.List.TakeWhile

/-!
# What a pattern spells

The ways of a pattern at a place are the pieces that it spells there (`mem_ways_iff`). Spelling is a
relation by recursion on the pattern, between the symbol before a piece, the piece, what follows it
and what is remembered of it; it forgets which way is preferred.

A search finds what is spelled at some place of the text (`exists_spells_of_mem_allMatches`).
Conversely, where a piece is spelled, the search finds a match there or is still inside an earlier
one (`exists_mem_allMatches_of_spells`).
-/

namespace ImportSupply

variable {α β : Type}

/-- The place behind a piece. -/
def Place.behind (place : Place α) (piece rest : List α) : Place α :=
  ⟨Pattern.lastOf place.before piece, place.index + piece.length, rest⟩

namespace Pattern

theorem behind_nil (place : Place α) : place.behind [] place.rest = place := by
  simp [Place.behind, lastOf]

theorem behind_behind (place : Place α) (first second middle rest : List α) :
    (place.behind first middle).behind second rest = place.behind (first ++ second) rest := by
  simp [Place.behind, lastOf_append, Nat.add_assoc]

theorem behind_cons (place : Place α) (c : α) (piece text rest : List α) :
    place.behind (c :: piece) rest =
      Place.behind ⟨some c, place.index + 1, text⟩ piece rest := by
  simp only [Place.behind, lastOf_cons, List.length_cons, Nat.add_right_comm, Nat.add_assoc]

/-- A piece that a pattern can pass behind a symbol and before a text, with the pieces that it
remembers. -/
def Spells : Pattern α → Option α → List α → List α → List (Capture α) → Prop
  | nothing, _, piece, _, captures => piece = [] ∧ captures = []
  | one accept, _, piece, _, captures => (∃ c, accept c = true ∧ piece = [c]) ∧ captures = []
  | many accept, _, piece, rest, captures =>
      (∀ c ∈ piece, accept c = true) ∧ rest.head?.any accept = false ∧ captures = []
  | few accept, _, piece, _, captures => (∀ c ∈ piece, accept c = true) ∧ captures = []
  | between related, before, piece, rest, captures =>
      related before rest.head? = true ∧ piece = [] ∧ captures = []
  | seq first second, before, piece, rest, captures =>
      ∃ piece₁ piece₂ captures₁ captures₂,
        first.Spells before piece₁ (piece₂ ++ rest) captures₁ ∧
          second.Spells (lastOf before piece₁) piece₂ rest captures₂ ∧
          piece = piece₁ ++ piece₂ ∧ captures = captures₂ ++ captures₁
  | either first second, before, piece, rest, captures =>
      first.Spells before piece rest captures ∨ second.Spells before piece rest captures
  | group number body, before, piece, rest, captures =>
      ∃ inner, body.Spells before piece rest inner ∧
        captures = ⟨number, piece ++ rest, piece.length⟩ :: inner

/-- The numbers under which a pattern remembers pieces. -/
def groups : Pattern α → List Nat
  | seq first second => first.groups ++ second.groups
  | either first second => first.groups ++ second.groups
  | group number body => number :: body.groups
  | _ => []

theorem group_mem_of_spells {pattern : Pattern α} {before : Option α} {piece rest : List α}
    {captures : List (Capture α)} (spells : pattern.Spells before piece rest captures) :
    ∀ capture ∈ captures, capture.group ∈ pattern.groups := by
  induction pattern generalizing before piece rest captures with
  | nothing | one _ | many _ | few _ | between _ => simp [Spells] at spells; simp [spells]
  | seq first second ihFirst ihSecond =>
    obtain ⟨_, _, _, _, spells₁, spells₂, -, rfl⟩ := spells
    intro capture member
    rcases List.mem_append.mp member with member | member
    · exact List.mem_append_right _ (ihSecond spells₂ capture member)
    · exact List.mem_append_left _ (ihFirst spells₁ capture member)
  | either first second ihFirst ihSecond =>
    intro capture member
    rcases spells with spells | spells
    · exact List.mem_append_left _ (ihFirst spells capture member)
    · exact List.mem_append_right _ (ihSecond spells capture member)
  | group number body ih =>
    obtain ⟨inner, spells, rfl⟩ := spells
    intro capture member
    rcases List.mem_cons.mp member with rfl | member
    · exact List.mem_cons_self
    · exact List.mem_cons_of_mem _ (ih spells capture member)

theorem eq_behindRun_iff {accept : α → Bool} {place after : Place α} :
    after = behindRun accept place.before place.index place.rest ↔
      ∃ piece rest, place.rest = piece ++ rest ∧ (∀ c ∈ piece, accept c = true) ∧
        rest.head?.any accept = false ∧ after = place.behind piece rest := by
  constructor
  · rintro rfl
    have inside : ∀ c ∈ place.rest.takeWhile accept, accept c = true := fun c member =>
      List.mem_takeWhile_imp member
    have stops : (place.rest.dropWhile accept).head?.any accept = false := by
      rw [Option.any_eq_false]
      intro c first
      simpa [first] using List.head?_dropWhile_not accept place.rest
    refine ⟨_, _, List.takeWhile_append_dropWhile.symm, inside, stops, ?_⟩
    have run := behindRun_append inside stops place.before place.index
    rwa [List.takeWhile_append_dropWhile] at run
  · rintro ⟨piece, rest, text, inside, stops, rfl⟩
    rw [text, behindRun_append inside stops]
    rfl

theorem mem_endsOfFew_iff {accept : α → Bool} {before : Option α} {index : Nat} {text : List α}
    {after : Place α} :
    after ∈ endsOfFew accept before index text ↔
      ∃ piece rest, text = piece ++ rest ∧ (∀ c ∈ piece, accept c = true) ∧
        after = Place.behind ⟨before, index, text⟩ piece rest := by
  induction text generalizing before index with
  | nil => simp [endsOfFew, Place.behind, lastOf]
  | cons c text ih =>
    rw [endsOfFew, List.mem_cons]
    constructor
    · rintro (rfl | member)
      · exact ⟨[], c :: text, rfl, by simp, rfl⟩
      · split at member
        next accepted =>
          obtain ⟨piece, rest, rfl, inside, rfl⟩ := ih.mp member
          refine ⟨c :: piece, rest, rfl, by simpa [accepted] using inside, ?_⟩
          rw [behind_cons]
        next => cases member
    · rintro ⟨piece, rest, same, inside, rfl⟩
      cases piece with
      | nil => left; rw [same]; rfl
      | cons d piece =>
        obtain ⟨rfl, rfl⟩ := List.cons.inj same
        right
        rw [if_pos (inside c List.mem_cons_self), ih]
        refine ⟨piece, rest, rfl, fun d member => inside d (List.mem_cons_of_mem c member), ?_⟩
        rw [behind_cons]

theorem mem_ways_one_iff {accept : α → Bool} {place : Place α}
    {earlier : List (Capture α)} {way : Place α × List (Capture α)} :
    way ∈ (one accept).ways place earlier ↔
      ∃ piece rest captures, place.rest = piece ++ rest ∧
        (one accept).Spells place.before piece rest captures ∧
          way = (place.behind piece rest, captures ++ earlier) := by
  obtain ⟨before, index, text⟩ := place
  cases text with
  | nil => simp [ways, Spells]
  | cons c text =>
    simp only [ways, Spells]
    constructor
    · intro member
      split at member
      next accepted =>
        rw [List.mem_singleton.mp member]
        exact ⟨[c], text, [], rfl, ⟨⟨c, accepted, rfl⟩, rfl⟩, rfl⟩
      next => cases member
    · rintro ⟨piece, rest, captures, same, ⟨⟨d, accepted, rfl⟩, rfl⟩, rfl⟩
      obtain ⟨rfl, rfl⟩ := List.cons.inj same
      rw [if_pos accepted]
      exact List.mem_singleton.mpr rfl

theorem mem_ways_between_iff {related : Option α → Option α → Bool} {place : Place α}
    {earlier : List (Capture α)} {way : Place α × List (Capture α)} :
    way ∈ (between related).ways place earlier ↔
      ∃ piece rest captures, place.rest = piece ++ rest ∧
        (between related).Spells place.before piece rest captures ∧
          way = (place.behind piece rest, captures ++ earlier) := by
  simp only [ways, Spells]
  constructor
  · intro member
    split at member
    next holds =>
      rw [List.mem_singleton.mp member]
      exact ⟨[], place.rest, [], rfl, ⟨holds, rfl, rfl⟩, by rw [behind_nil, List.nil_append]⟩
    next => cases member
  · rintro ⟨piece, rest, captures, text, ⟨holds, rfl, rfl⟩, rfl⟩
    rw [List.nil_append] at text
    rw [← text] at holds ⊢
    rw [if_pos holds, behind_nil]
    exact List.mem_singleton.mpr rfl

/-- The ways of a pattern are the pieces that it spells. -/
theorem mem_ways_iff {pattern : Pattern α} {place : Place α} {earlier : List (Capture α)}
    {way : Place α × List (Capture α)} :
    way ∈ pattern.ways place earlier ↔
      ∃ piece rest captures, place.rest = piece ++ rest ∧
        pattern.Spells place.before piece rest captures ∧
          way = (place.behind piece rest, captures ++ earlier) := by
  induction pattern generalizing place earlier way with
  | nothing =>
    simp only [ways, Spells, List.mem_singleton]
    constructor
    · rintro rfl
      exact ⟨[], place.rest, [], rfl, ⟨rfl, rfl⟩, by rw [behind_nil, List.nil_append]⟩
    · rintro ⟨piece, rest, captures, text, ⟨rfl, rfl⟩, rfl⟩
      rw [List.nil_append] at text
      rw [← text, behind_nil, List.nil_append]
  | one accept => exact mem_ways_one_iff
  | many accept =>
    obtain ⟨after, captures⟩ := way
    simp only [ways, Spells, List.mem_singleton, Prod.mk.injEq, eq_behindRun_iff]
    constructor
    · rintro ⟨⟨piece, rest, text, inside, stops, rfl⟩, rfl⟩
      exact ⟨piece, rest, [], text, ⟨inside, stops, rfl⟩, rfl, rfl⟩
    · rintro ⟨piece, rest, _, text, ⟨inside, stops, rfl⟩, rfl, rfl⟩
      exact ⟨⟨piece, rest, text, inside, stops, rfl⟩, rfl⟩
  | few accept =>
    simp only [ways, Spells, List.mem_map, mem_endsOfFew_iff]
    constructor
    · rintro ⟨after, ⟨piece, rest, text, inside, rfl⟩, rfl⟩
      exact ⟨piece, rest, [], text, ⟨inside, rfl⟩, rfl⟩
    · rintro ⟨piece, rest, captures, text, ⟨inside, rfl⟩, rfl⟩
      exact ⟨_, ⟨piece, rest, text, inside, rfl⟩, rfl⟩
  | between related => exact mem_ways_between_iff
  | seq first second ihFirst ihSecond =>
    simp only [ways, Spells, List.mem_flatMap, ihFirst, ihSecond]
    constructor
    · rintro ⟨_, ⟨piece₁, middle, captures₁, text, spells₁, rfl⟩, piece₂, rest, captures₂, text₂,
        spells₂, rfl⟩
      obtain rfl : middle = piece₂ ++ rest := text₂
      refine ⟨piece₁ ++ piece₂, rest, captures₂ ++ captures₁, ?_, ?_, ?_⟩
      · rw [text, List.append_assoc]
      · exact ⟨piece₁, piece₂, captures₁, captures₂, spells₁, spells₂, rfl, rfl⟩
      · rw [behind_behind, List.append_assoc]
    · rintro ⟨_, rest, _, text, ⟨piece₁, piece₂, captures₁, captures₂, spells₁, spells₂, rfl, rfl⟩,
        rfl⟩
      rw [List.append_assoc] at text
      refine ⟨_, ⟨piece₁, piece₂ ++ rest, captures₁, text, spells₁, rfl⟩, piece₂, rest, captures₂,
        rfl, spells₂, ?_⟩
      rw [behind_behind, List.append_assoc]
  | either first second ihFirst ihSecond =>
    simp only [ways, Spells, List.mem_append, ihFirst, ihSecond]
    constructor
    · rintro (⟨piece, rest, captures, text, spells, rfl⟩ |
        ⟨piece, rest, captures, text, spells, rfl⟩)
      · exact ⟨piece, rest, captures, text, .inl spells, rfl⟩
      · exact ⟨piece, rest, captures, text, .inr spells, rfl⟩
    · rintro ⟨piece, rest, captures, text, spells | spells, rfl⟩
      · exact .inl ⟨piece, rest, captures, text, spells, rfl⟩
      · exact .inr ⟨piece, rest, captures, text, spells, rfl⟩
  -- a group remembers the text from its start on and how much of it was passed
  | group number body ih =>
    have length (piece rest : List α) :
        (place.behind piece rest).index - place.index = piece.length := by
      simp [Place.behind]
    simp only [ways, Spells, List.mem_map, ih]
    constructor
    · rintro ⟨_, ⟨piece, rest, inner, text, spells, rfl⟩, rfl⟩
      refine ⟨piece, rest, _, text, ⟨inner, spells, rfl⟩, ?_⟩
      rw [length, text, List.cons_append]
    · rintro ⟨piece, rest, _, text, ⟨inner, spells, rfl⟩, rfl⟩
      refine ⟨_, ⟨piece, rest, inner, text, spells, rfl⟩, ?_⟩
      rw [length, text, List.cons_append]

/-! ## Spelling the pieces of statements -/

section

variable {before : Option α} {piece rest : List α} {captures : List (Capture α)}

theorem spells_seq {first second : Pattern α} :
    (seq first second).Spells before piece rest captures ↔
      ∃ piece₁ piece₂ captures₁ captures₂,
        first.Spells before piece₁ (piece₂ ++ rest) captures₁ ∧
          second.Spells (lastOf before piece₁) piece₂ rest captures₂ ∧
          piece = piece₁ ++ piece₂ ∧ captures = captures₂ ++ captures₁ :=
  Iff.rfl

theorem spells_group {number : Nat} {body : Pattern α} :
    (group number body).Spells before piece rest captures ↔
      ∃ inner, body.Spells before piece rest inner ∧
        captures = ⟨number, piece ++ rest, piece.length⟩ :: inner :=
  Iff.rfl

theorem spells_all_nil : (all []).Spells before piece rest captures ↔ piece = [] ∧ captures = [] :=
  Iff.rfl

theorem spells_all_cons {first : Pattern α} {others : List (Pattern α)} :
    (all (first :: others)).Spells before piece rest captures ↔
      (seq first (all others)).Spells before piece rest captures := by
  cases others with
  | nil => simp [all, Spells]
  | cons second others => exact Iff.rfl

theorem spells_seq_assoc {first second third : Pattern α} :
    (seq (seq first second) third).Spells before piece rest captures ↔
      (seq first (seq second third)).Spells before piece rest captures := by
  simp only [Spells]
  constructor
  · rintro ⟨_, piece₃, _, captures₃, ⟨piece₁, piece₂, captures₁, captures₂, spells₁, spells₂, rfl,
      rfl⟩, spells₃, rfl, rfl⟩
    rw [lastOf_append] at spells₃
    exact ⟨piece₁, _, captures₁, _, by simpa using spells₁,
      ⟨piece₂, piece₃, captures₂, captures₃, spells₂, spells₃, rfl, rfl⟩, by simp, by simp⟩
  · rintro ⟨piece₁, _, captures₁, _, spells₁, ⟨piece₂, piece₃, captures₂, captures₃, spells₂,
      spells₃, rfl, rfl⟩, rfl, rfl⟩
    rw [List.append_assoc] at spells₁
    rw [← lastOf_append] at spells₃
    exact ⟨_, piece₃, _, captures₃, ⟨piece₁, piece₂, captures₁, captures₂, spells₁, spells₂, rfl,
      rfl⟩, spells₃, by simp, by simp⟩

theorem spells_all_append {patterns others : List (Pattern α)} :
    (all (patterns ++ others)).Spells before piece rest captures ↔
      (seq (all patterns) (all others)).Spells before piece rest captures := by
  induction patterns generalizing before piece rest captures with
  | nil => simp [all, Spells, lastOf]
  | cons first patterns ih =>
    rw [List.cons_append, spells_all_cons]
    have parts : (seq first (all (patterns ++ others))).Spells before piece rest captures ↔
        (seq first (seq (all patterns) (all others))).Spells before piece rest captures := by
      rw [Spells, Spells]
      simp only [ih]
    rw [parts, ← spells_seq_assoc, Spells, Spells]
    simp only [spells_all_cons]

theorem spells_all_all {patterns others : List (Pattern α)} :
    (all (all patterns :: others)).Spells before piece rest captures ↔
      (all (patterns ++ others)).Spells before piece rest captures := by
  rw [spells_all_cons, spells_all_append]

theorem spells_several {accept : α → Bool} :
    (several accept).Spells before piece rest captures ↔
      piece ≠ [] ∧ (∀ c ∈ piece, accept c = true) ∧ rest.head?.any accept = false ∧
        captures = [] := by
  simp only [several, Spells]
  constructor
  · rintro ⟨_, piece, _, _, ⟨⟨c, accepted, rfl⟩, rfl⟩, ⟨inside, stops, rfl⟩, rfl, rfl⟩
    exact ⟨by simp, by simpa [accepted] using inside, stops, rfl⟩
  · rintro ⟨nonempty, inside, stops, rfl⟩
    obtain ⟨c, piece, rfl⟩ := List.exists_cons_of_ne_nil nonempty
    have accepted := inside c List.mem_cons_self
    have others := fun d member => inside d (List.mem_cons_of_mem c member)
    exact ⟨[c], piece, [], [], ⟨⟨c, accepted, rfl⟩, rfl⟩, ⟨others, stops, rfl⟩, rfl, rfl⟩

end

section

variable {before : Option Char} {piece rest : List Char} {captures : List (Capture Char)}

theorem spells_text {characters : String} :
    (text characters).Spells before piece rest captures ↔
      piece = characters.toList ∧ captures = [] := by
  suffices exact : ∀ symbols before piece captures,
      (exactly symbols).Spells before piece rest captures ↔ piece = symbols ∧ captures = [] from
    exact characters.toList before piece captures
  intro symbols
  induction symbols with
  | nil => exact fun _ _ _ => Iff.rfl
  | cons c symbols ih =>
    intro before piece captures
    rw [exactly, List.map_cons, spells_all_cons, ← exactly]
    simp only [Spells, ih, beq_iff_eq]
    constructor
    · rintro ⟨_, _, _, _, ⟨⟨_, rfl, rfl⟩, rfl⟩, ⟨rfl, rfl⟩, rfl, rfl⟩
      exact ⟨rfl, rfl⟩
    · rintro ⟨rfl, rfl⟩
      exact ⟨[c], symbols, [], [], ⟨⟨c, rfl, rfl⟩, rfl⟩, ⟨rfl, rfl⟩, rfl, rfl⟩

/-- A text of at least one blank. -/
def IsGap (text : List Char) : Prop :=
  text ≠ [] ∧ ∀ c ∈ text, Text.isBlank c = true

theorem spells_gap :
    gap.Spells before piece rest captures ↔
      IsGap piece ∧ rest.head?.any Text.isBlank = false ∧ captures = [] := by
  rw [gap, spells_several, IsGap, and_assoc]

theorem spells_blanks :
    blanks.Spells before piece rest captures ↔
      (∀ c ∈ piece, Text.isBlank c = true) ∧ rest.head?.any Text.isBlank = false ∧
        captures = [] :=
  Iff.rfl

theorem spells_name :
    name.Spells before piece rest captures ↔
      Name.isBindable piece = true ∧ rest.head?.any Name.isTail = false ∧ captures = [] := by
  simp only [name, Spells]
  constructor
  · rintro ⟨_, piece, _, _, ⟨⟨c, accepted, rfl⟩, rfl⟩, ⟨inside, stops, rfl⟩, rfl, rfl⟩
    refine ⟨?_, stops, rfl⟩
    simpa [Name.isBindable, accepted] using inside
  · rintro ⟨bindable, stops, rfl⟩
    cases piece with
    | nil => cases bindable
    | cons c piece =>
      obtain ⟨accepted, inside⟩ := (Bool.and_eq_true _ _).mp bindable
      exact ⟨[c], piece, [], [], ⟨⟨c, accepted, rfl⟩, rfl⟩,
        ⟨List.all_eq_true.mp inside, stops, rfl⟩, rfl, rfl⟩

theorem spells_wordEdge :
    wordEdge.Spells before piece rest captures ↔
      before.any Text.isWord ≠ rest.head?.any Text.isWord ∧ piece = [] ∧ captures = [] := by
  simp only [wordEdge, Spells, bne_iff_ne]

theorem spells_bracketed {opening closing : Char} {number : Nat} :
    (bracketed opening closing number).Spells before piece rest captures ↔
      ∃ body, closing ∉ body ∧ piece = opening :: (body ++ [closing]) ∧
        captures = [⟨number, body ++ closing :: rest, body.length⟩] := by
  simp only [bracketed, spells_all_cons, spells_all_nil, Spells, beq_iff_eq]
  constructor
  · rintro ⟨_, _, _, _, ⟨⟨_, rfl, rfl⟩, rfl⟩, ⟨body, _, _, _, ⟨_, ⟨inside, -, rfl⟩, rfl⟩,
      ⟨_, _, _, _, ⟨⟨mark, rfl, rfl⟩, rfl⟩, ⟨rfl, rfl⟩, rfl, rfl⟩, rfl, rfl⟩, rfl, rfl⟩
    refine ⟨body, fun member => ?_, by simp, by simp⟩
    simpa using inside mark member
  · rintro ⟨body, inside, rfl, rfl⟩
    have accepted : ∀ c ∈ body, (c != closing) = true := by
      intro c member
      rw [bne_iff_ne]
      rintro rfl
      exact inside member
    exact ⟨[opening], body ++ [closing], [], _, ⟨⟨opening, rfl, rfl⟩, rfl⟩, ⟨body, [closing], _, [],
      ⟨[], ⟨accepted, by simp, rfl⟩, rfl⟩, ⟨[closing], [], [], [], ⟨⟨closing, rfl, rfl⟩, rfl⟩,
        ⟨rfl, rfl⟩, rfl, rfl⟩, rfl, rfl⟩, rfl, by simp⟩

end

/-! ## Patterns that remember nothing -/

/-- What a pattern that remembers nothing passes: certain pieces before certain texts. -/
def Passes (pattern : Pattern α) (passed : List α → List α → Prop) : Prop :=
  ∀ before piece rest captures,
    pattern.Spells before piece rest captures ↔ passed piece rest ∧ captures = []

/-- One passed piece and then another. -/
def Joined (passed passed' : List α → List α → Prop) (piece rest : List α) : Prop :=
  ∃ first second, piece = first ++ second ∧ passed first (second ++ rest) ∧ passed' second rest

section

variable {pattern other : Pattern α} {passed passed' : List α → List α → Prop}

theorem Passes.seq (passes : Passes pattern passed) (passes' : Passes other passed') :
    Passes (seq pattern other) (Joined passed passed') := by
  intro before piece rest captures
  simp only [Spells, passes _ _ _ _, passes' _ _ _ _, Joined]
  constructor
  · rintro ⟨first, second, _, _, ⟨own, rfl⟩, ⟨own', rfl⟩, rfl, rfl⟩
    exact ⟨⟨first, second, rfl, own, own'⟩, rfl⟩
  · rintro ⟨⟨first, second, rfl, own, own'⟩, rfl⟩
    exact ⟨first, second, [], [], ⟨own, rfl⟩, ⟨own', rfl⟩, rfl, rfl⟩

theorem passes_all_nil : Passes (all ([] : List (Pattern α))) fun piece _ => piece = [] :=
  fun _ _ _ _ => Iff.rfl

theorem Passes.all_cons (passes : Passes pattern passed) {patterns : List (Pattern α)}
    (passes' : Passes (all patterns) passed') :
    Passes (all (pattern :: patterns)) (Joined passed passed') := by
  intro before piece rest captures
  rw [spells_all_cons]
  exact passes.seq passes' before piece rest captures

theorem Passes.all_append {patterns patterns' : List (Pattern α)}
    (passes : Passes (all patterns) passed) (passes' : Passes (all patterns') passed') :
    Passes (all (patterns ++ patterns')) (Joined passed passed') := by
  intro before piece rest captures
  rw [spells_all_append]
  exact passes.seq passes' before piece rest captures

theorem Passes.either (passes : Passes pattern passed) (passes' : Passes other passed') :
    Passes (either pattern other) fun piece rest => passed piece rest ∨ passed' piece rest := by
  intro before piece rest captures
  simp only [Spells, passes _ _ _ _, passes' _ _ _ _, or_and_right]

theorem Passes.maybe (passes : Passes pattern passed) :
    Passes (maybe pattern) fun piece rest => passed piece rest ∨ piece = [] :=
  passes.either fun _ _ _ _ => Iff.rfl

theorem Passes.congr (passes : Passes pattern passed)
    (same : ∀ piece rest, passed piece rest ↔ passed' piece rest) : Passes pattern passed' := by
  intro before piece rest captures
  rw [passes, same]

end

theorem passes_text (characters : String) :
    Passes (text characters) fun piece _ => piece = characters.toList :=
  fun _ _ _ _ => spells_text

theorem passes_gap : Passes gap fun piece rest =>
    IsGap piece ∧ rest.head?.any Text.isBlank = false := by
  intro before piece rest captures
  rw [spells_gap, and_assoc]

theorem passes_blanks : Passes blanks fun piece rest =>
    (∀ c ∈ piece, Text.isBlank c = true) ∧ rest.head?.any Text.isBlank = false := by
  intro before piece rest captures
  rw [spells_blanks, and_assoc]

theorem passes_maybeWord (characters : String) :
    Passes (maybeWord characters) fun piece rest =>
      (∃ gap, piece = characters.toList ++ gap ∧ IsGap gap ∧
        rest.head?.any Text.isBlank = false) ∨ piece = [] := by
  have word := ((passes_text characters).all_cons (passes_gap.all_cons passes_all_nil)).maybe
  refine word.congr fun piece rest => or_congr_left ?_
  constructor
  · rintro ⟨_, _, rfl, rfl, gap, _, rfl, ⟨isGap, stops⟩, rfl⟩
    exact ⟨gap, by simp, isGap, by simpa using stops⟩
  · rintro ⟨gap, rfl, isGap, stops⟩
    exact ⟨_, gap, rfl, rfl, gap, [], by simp, ⟨isGap, by simpa using stops⟩, rfl⟩

/-- A statement that names one thing: what it passes up to the name, the name, and what it passes
behind it. -/
theorem spells_naming {opening closing : List (Pattern Char)}
    {opens closes : List Char → List Char → Prop} (opening_passes : Passes (all opening) opens)
    (closing_passes : Passes (all closing) closes) {before : Option Char} {piece rest : List Char}
    {captures : List (Capture Char)} :
    (all (wordEdge :: (opening ++ group 1 name :: closing))).Spells before piece rest captures ↔
      ∃ front named back, piece = front ++ (named ++ back) ∧
        before.any Text.isWord ≠ (piece ++ rest).head?.any Text.isWord ∧
        opens front (named ++ (back ++ rest)) ∧ Name.isBindable named = true ∧
        (back ++ rest).head?.any Name.isTail = false ∧ closes back rest ∧
        captures = [⟨1, named ++ (back ++ rest), named.length⟩] := by
  rw [spells_all_cons, Spells]
  simp only [spells_wordEdge, spells_all_append, spells_all_cons, Spells, spells_name,
    opening_passes _ _ _ _, closing_passes _ _ _ _]
  constructor
  · rintro ⟨_, _, _, _, ⟨edge, rfl, rfl⟩, ⟨front, _, _, _, ⟨opens, rfl⟩, ⟨named, back, _, _,
      ⟨_, ⟨bindable, stops, rfl⟩, rfl⟩, ⟨closes, rfl⟩, rfl, rfl⟩, rfl, rfl⟩, rfl, rfl⟩
    refine ⟨front, named, back, rfl, edge, ?_, bindable, stops, closes, rfl⟩
    simpa using opens
  · rintro ⟨front, named, back, rfl, edge, opens, bindable, stops, closes, rfl⟩
    refine ⟨[], _, [], _, ⟨edge, rfl, rfl⟩, ⟨front, _, [], _, ⟨?_, rfl⟩, ⟨named, back, _, [],
      ⟨[], ⟨bindable, stops, rfl⟩, rfl⟩, ⟨closes, rfl⟩, rfl, rfl⟩, rfl, rfl⟩, rfl, rfl⟩
    simpa using opens

/-! ## Matches and their places -/

section

variable {pattern : Pattern α}

theorem exists_spells_of_run {place : Place α} {earlier : List (Capture α)}
    {next : Place α → List (Capture α) → Option β} {result : β}
    (runs : pattern.run place earlier next = some result) :
    ∃ piece rest captures, place.rest = piece ++ rest ∧
      pattern.Spells place.before piece rest captures ∧
        next (place.behind piece rest) (captures ++ earlier) = some result := by
  rw [run_eq_findSome?] at runs
  obtain ⟨way, member, ends⟩ := List.exists_of_findSome?_eq_some runs
  obtain ⟨piece, rest, captures, text, spells, rfl⟩ := mem_ways_iff.mp member
  exact ⟨piece, rest, captures, text, spells, ends⟩

theorem isSome_run_of_spells {place : Place α} {earlier : List (Capture α)}
    {next : Place α → List (Capture α) → Option β} {piece rest : List α}
    {captures : List (Capture α)} (text : place.rest = piece ++ rest)
    (spells : pattern.Spells place.before piece rest captures)
    (succeeds : (next (place.behind piece rest) (captures ++ earlier)).isSome = true) :
    (pattern.run place earlier next).isSome = true := by
  rw [run_eq_findSome?, List.findSome?_isSome_iff]
  exact ⟨_, mem_ways_iff.mpr ⟨piece, rest, captures, text, spells, rfl⟩, succeeds⟩

theorem exists_spells_of_matchAt {place : Place α} {found : Match α}
    (starts : pattern.matchAt place = some found) :
    ∃ piece rest captures, place.rest = piece ++ rest ∧
      pattern.Spells place.before piece rest captures ∧
        found = ⟨place.index, piece.length, captures⟩ := by
  obtain ⟨piece, rest, captures, text, spells, ends⟩ := exists_spells_of_run starts
  refine ⟨piece, rest, captures, text, spells, ?_⟩
  simpa [Place.behind] using ends.symm

theorem exists_matchAt_of_spells {place : Place α} {piece rest : List α}
    {captures : List (Capture α)} (text : place.rest = piece ++ rest)
    (spells : pattern.Spells place.before piece rest captures) :
    ∃ found, pattern.matchAt place = some found :=
  Option.isSome_iff_exists.mp (isSome_run_of_spells text spells rfl)

theorem exists_place_of_mem_matchesFrom {skip index : Nat} {before : Option α} {text : List α}
    {found : Match α} (member : found ∈ pattern.matchesFrom skip before index text) :
    ∃ front back, text = front ++ back ∧
      pattern.matchAt ⟨lastOf before front, index + front.length, back⟩ = some found := by
  induction text generalizing skip before index with
  | nil => simp [matchesFrom] at member
  | cons c text ih =>
    have later {skip : Nat}
        (member : found ∈ pattern.matchesFrom skip (some c) (index + 1) text) :
        ∃ front back, c :: text = front ++ back ∧
          pattern.matchAt ⟨lastOf before front, index + front.length, back⟩ = some found := by
      obtain ⟨front, back, rfl, starts⟩ := ih member
      refine ⟨c :: front, back, rfl, ?_⟩
      rw [lastOf_cons, List.length_cons, Nat.add_comm front.length, ← Nat.add_assoc]
      exact starts
    cases skip with
    | succ skip => exact later member
    | zero =>
      rw [matchesFrom] at member
      split at member
      next first starts =>
        rcases List.mem_cons.mp member with rfl | member
        · exact ⟨[], c :: text, rfl, starts⟩
        · exact later member
      next => exact later member

/-- Every match found in a text is spelled somewhere in it. -/
theorem exists_spells_of_mem_allMatches {text : List α} {found : Match α}
    (member : found ∈ pattern.allMatches text) :
    ∃ front piece rest captures, text = front ++ (piece ++ rest) ∧
      pattern.Spells (lastOf none front) piece rest captures ∧
        found = ⟨front.length, piece.length, captures⟩ := by
  obtain ⟨front, back, rfl, starts⟩ := exists_place_of_mem_matchesFrom member
  obtain ⟨piece, rest, captures, rfl, spells, rfl⟩ := exists_spells_of_matchAt starts
  exact ⟨front, piece, rest, captures, rfl, spells, by simp⟩

/-- Where a pattern matches, a match is found that starts there or that starts earlier and ends
later. -/
theorem exists_mem_matchesFrom_of_matchAt {front back : List α} (nonempty : back ≠ [])
    {skip index : Nat} {before : Option α} (outside : skip ≤ front.length) {here : Match α}
    (starts : pattern.matchAt ⟨lastOf before front, index + front.length, back⟩ = some here) :
    ∃ first skipped found, front = first ++ skipped ∧
      found ∈ pattern.matchesFrom skip before index (front ++ back) ∧
      pattern.matchAt ⟨lastOf before first, index + first.length, skipped ++ back⟩ = some found ∧
        (skipped = [] ∨ skipped.length < found.length) := by
  induction front generalizing skip before index with
  | nil =>
    obtain ⟨c, back, rfl⟩ := List.exists_cons_of_ne_nil nonempty
    obtain rfl : skip = 0 := Nat.le_zero.mp outside
    refine ⟨[], [], here, rfl, ?_, starts, .inl rfl⟩
    have first := head?_matchesFrom starts nonempty
    exact List.mem_of_head? first
  | cons c front ih =>
    rw [lastOf_cons, List.length_cons, Nat.add_comm front.length, ← Nat.add_assoc] at starts
    have later {skip : Nat} (outside : skip ≤ front.length) :
        ∃ first skipped found, c :: front = first ++ skipped ∧
          found ∈ pattern.matchesFrom skip (some c) (index + 1) (front ++ back) ∧
          pattern.matchAt ⟨lastOf before first, index + first.length, skipped ++ back⟩ =
            some found ∧ (skipped = [] ∨ skipped.length < found.length) := by
      obtain ⟨first, skipped, found, rfl, member, starts', length⟩ := ih outside starts
      refine ⟨c :: first, skipped, found, rfl, member, ?_, length⟩
      rw [lastOf_cons, List.length_cons, Nat.add_comm first.length, ← Nat.add_assoc]
      exact starts'
    cases skip with
    | succ skip => exact later (Nat.le_of_succ_le_succ outside)
    | zero =>
      rw [List.cons_append, matchesFrom]
      cases earlier : pattern.matchAt ⟨before, index, c :: (front ++ back)⟩ with
      | none => exact later (Nat.zero_le _)
      | some found =>
        -- an earlier match ends in front of the place, where the search goes on, or it covers the
        -- place
        by_cases ends : found.length - 1 ≤ front.length
        · obtain ⟨first, skipped, other, split, member, rest⟩ := later ends
          exact ⟨first, skipped, other, split, List.mem_cons_of_mem found member, rest⟩
        · refine ⟨[], c :: front, found, rfl, List.mem_cons_self, earlier, .inr ?_⟩
          rw [List.length_cons]
          omega

/-- Where a pattern spells something, the search finds a match that starts there or reaches over
it. -/
theorem exists_mem_allMatches_of_spells {front back piece rest : List α}
    {captures : List (Capture α)} (nonempty : back ≠ []) (text : back = piece ++ rest)
    (spells : pattern.Spells (lastOf none front) piece rest captures) :
    ∃ first skipped found, front = first ++ skipped ∧ found ∈ pattern.allMatches (front ++ back) ∧
      pattern.matchAt ⟨lastOf none first, first.length, skipped ++ back⟩ = some found ∧
        (skipped = [] ∨ skipped.length < found.length) := by
  let place : Place α := ⟨lastOf none front, 0 + front.length, back⟩
  have spelled : pattern.Spells place.before piece rest captures := spells
  obtain ⟨here, starts⟩ := exists_matchAt_of_spells text spelled
  obtain ⟨first, skipped, found, split, member, starts, covers⟩ :=
    exists_mem_matchesFrom_of_matchAt nonempty (Nat.zero_le _) starts
  rw [Nat.zero_add] at starts
  exact ⟨first, skipped, found, split, member, starts, covers⟩

end

end Pattern

end ImportSupply
