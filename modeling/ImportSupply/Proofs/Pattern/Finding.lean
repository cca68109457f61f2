import ImportSupply.Proofs.Pattern.Spelling
import Mathlib.Data.List.Basic

/-!
# What a search finds in parts of a text

What matches say is put together from what they say in the parts of a text (`Finds`). A part counts
on its own if the search arrives at it outside a word and leaves it outside a word, and if what is
found in it does not depend on what follows. Two kinds of parts are such: one that a single match
passes as a whole (`finds_of_matchAt`), and one in which matches say nothing (`finds_nil`).
-/

namespace ImportSupply.Pattern

/-- A text in which the matches of a search say certain names, whatever stands around it. -/
structure Finds (pattern : Pattern Char) (read : Match Char → List String) (text : List Char)
    (names : List String) : Prop where
  edge : text.getLast?.any Text.isWord = false
  found : ∀ before index back, before.any Text.isWord = false →
    (pattern.matchesFrom 0 before index (text ++ back)).flatMap read =
      names ++
        (pattern.matchesFrom 0 (lastOf before text) (index + text.length) back).flatMap read

variable {pattern : Pattern Char} {read : Match Char → List String} {text other : List Char}
  {names more : List String}

theorem any_isWord_lastOf {before : Option Char} (outside : before.any Text.isWord = false)
    (edge : text.getLast?.any Text.isWord = false) :
    (lastOf before text).any Text.isWord = false := by
  rw [lastOf]
  cases last : text.getLast? with
  | none => exact outside
  | some c => rwa [last] at edge

theorem Finds.append (first : Finds pattern read text names)
    (second : Finds pattern read other more) :
    Finds pattern read (text ++ other) (names ++ more) := by
  constructor
  · by_cases empty : other = []
    · simpa [empty] using first.edge
    · rw [List.getLast?_append_of_ne_nil _ empty]
      exact second.edge
  · intro before index back outside
    rw [List.append_assoc, first.found _ _ _ outside,
      second.found _ _ _ (any_isWord_lastOf outside first.edge), lastOf_append, List.length_append,
      List.append_assoc, Nat.add_assoc]

theorem Finds.flatMap {γ : Type} {parts : List γ} {part : γ → List Char} {said : γ → List String}
    (finds : ∀ one ∈ parts, Finds pattern read (part one) (said one)) :
    Finds pattern read (parts.flatMap part) (parts.flatMap said) := by
  induction parts with
  | nil => exact ⟨rfl, fun _ _ _ _ => rfl⟩
  | cons one parts ih =>
    rw [List.flatMap_cons, List.flatMap_cons]
    exact (finds one List.mem_cons_self).append
      (ih fun other member => finds other (List.mem_cons_of_mem one member))

theorem Finds.flatMap_allMatches (finds : Finds pattern read text names) :
    (pattern.allMatches text).flatMap read = names := by
  have all := finds.found none 0 [] rfl
  rw [List.append_nil] at all
  simpa [allMatches, matchesFrom] using all

/-- A text that one match passes from its start to its end. -/
theorem finds_of_matchAt (nonempty : text ≠ []) (edge : text.getLast?.any Text.isWord = false)
    (starts : ∀ before index back, before.any Text.isWord = false → ∃ found,
      pattern.matchAt ⟨before, index, text ++ back⟩ = some found ∧ found.length = text.length ∧
        read found = names) :
    Finds pattern read text names := by
  refine ⟨edge, fun before index back outside => ?_⟩
  obtain ⟨found, starts, length, said⟩ := starts before index back outside
  obtain ⟨c, text, rfl⟩ := List.exists_cons_of_ne_nil nonempty
  rw [List.cons_append] at starts ⊢
  rw [matchesFrom, starts]
  simp only [length, List.length_cons, Nat.add_sub_cancel, List.flatMap_cons, said]
  rw [matchesFrom_length, lastOf_cons, Nat.add_comm text.length, ← Nat.add_assoc]

/-- A text that a pattern spells outside a word, and all of whose readings end with it and say the
same. -/
theorem finds_of_spells (nonempty : text ≠ []) (edge : text.getLast?.any Text.isWord = false)
    (spells : ∀ before back, before.any Text.isWord = false →
      ∃ captures, pattern.Spells before text back captures)
    (unique : ∀ before back piece rest captures, text ++ back = piece ++ rest →
      pattern.Spells before piece rest captures →
        back = rest ∧ ∀ index length, read ⟨index, length, captures⟩ = names) :
    Finds pattern read text names := by
  refine finds_of_matchAt nonempty edge fun before index back outside => ?_
  obtain ⟨captures, spelled⟩ := spells before back outside
  have place : Place.rest ⟨before, index, text ++ back⟩ = text ++ back := rfl
  obtain ⟨found, starts⟩ := exists_matchAt_of_spells place spelled
  obtain ⟨piece, rest, captures, same, spelled, rfl⟩ := exists_spells_of_matchAt starts
  obtain ⟨rfl, said⟩ := unique before back piece rest captures same spelled
  obtain rfl := List.append_cancel_right same
  exact ⟨_, starts, rfl, said index text.length⟩

/-- A text in which every match ends that starts in it, and says nothing. -/
theorem finds_nil (edge : text.getLast?.any Text.isWord = false)
    (quiet : ∀ front tail back before piece rest captures, text = front ++ tail → tail ≠ [] →
      tail ++ back = piece ++ rest → pattern.Spells before piece rest captures →
        piece.length ≤ tail.length ∧ ∀ index, read ⟨index, piece.length, captures⟩ = []) :
    Finds pattern read text [] := by
  refine ⟨edge, fun before index back outside => ?_⟩
  clear edge outside
  -- in a match that was found earlier the search goes on inside the text, so the skip is general
  suffices all : ∀ skip, skip ≤ text.length →
      (pattern.matchesFrom skip before index (text ++ back)).flatMap read =
        (pattern.matchesFrom 0 (lastOf before text) (index + text.length) back).flatMap read from
    all 0 (Nat.zero_le _)
  induction text generalizing before index with
  | nil =>
    intro skip within
    rw [Nat.le_zero.mp within]
    rfl
  | cons c text ih =>
    have later := ih
      (fun front tail back before piece rest captures split =>
        quiet (c :: front) tail back before piece rest captures (by rw [split, List.cons_append]))
      (some c) (index + 1)
    rw [List.length_cons, Nat.add_comm text.length, ← Nat.add_assoc, lastOf_cons]
    intro skip within
    cases skip with
    | succ skip =>
      rw [List.cons_append, matchesFrom]
      exact later skip (by omega)
    | zero =>
      rw [List.cons_append, matchesFrom]
      cases starts : pattern.matchAt ⟨before, index, c :: (text ++ back)⟩ with
      | none => exact later 0 (Nat.zero_le _)
      | some found =>
        obtain ⟨piece, rest, captures, same, spells, rfl⟩ := exists_spells_of_matchAt starts
        obtain ⟨inside, silent⟩ :=
          quiet [] (c :: text) back before piece rest captures rfl (by simp) same spells
        rw [List.length_cons] at inside
        rw [List.flatMap_cons, silent, List.nil_append]
        exact later (piece.length - 1) (by omega)

/-- A text in which no match starts. -/
theorem Skips.finds (skips : pattern.Skips text) (edge : text.getLast?.any Text.isWord = false) :
    Finds pattern read text [] := by
  refine ⟨edge, fun before index back _ => ?_⟩
  rw [skips.matchesFrom_append, List.nil_append]

/-- A text without the character that every match starts with. -/
theorem finds_nil_of_not_mem {first : Char} (needs : pattern.nullable = false)
    (heads : ∀ c, pattern.starts c = true → c = first) (absent : first ∉ text)
    (edge : text.getLast?.any Text.isWord = false) : Finds pattern read text [] := by
  refine (skips_of_starts needs fun c member => ?_).finds edge
  by_contra begins
  rw [Bool.not_eq_false] at begins
  exact absent (heads c begins ▸ member)

end ImportSupply.Pattern
