import ImportSupply.Proofs.Text.Classes
import Mathlib.Data.List.Basic

/-!
# Whole words of a text

A word stands in a text as a whole if no word character precedes or follows it. The whole words of
joined texts are those of the parts, if no word goes over the border between them.
-/

namespace ImportSupply.Text

/-- A word that stands in a text, with no word character next to it. -/
def HasWord (word text : List Char) : Prop :=
  ∃ front back, text = front ++ (word ++ back) ∧ front.getLast?.any isWord = false ∧
    back.head?.any isWord = false

section

variable {word text other : List Char}

theorem any_isWord_getLast?_of_append {front back : List Char}
    (outside : (front ++ back).getLast?.any isWord = false) :
    back.getLast?.any isWord = false := by
  by_cases empty : back = []
  · rw [empty]
    rfl
  · rwa [List.getLast?_append_of_ne_nil _ empty] at outside

theorem any_isWord_head?_of_append {front back : List Char}
    (outside : (front ++ back).head?.any isWord = false) : front.head?.any isWord = false := by
  by_cases empty : front = []
  · rw [empty]
    rfl
  · rwa [List.head?_append_of_ne_nil _ empty] at outside

/-- A whole word of two texts with a border between them is a whole word of one of them. -/
theorem HasWord.of_append (inside : ∀ c ∈ word, isWord c = true)
    (border : text.getLast?.any isWord = false ∨ other.head?.any isWord = false)
    (has : HasWord word (text ++ other)) : HasWord word text ∨ HasWord word other := by
  obtain ⟨front, back, same, left, right⟩ := has
  rcases List.append_eq_append_iff.mp same with ⟨more, rfl, split⟩ | ⟨more, rfl, split⟩
  · exact .inr ⟨more, back, split, any_isWord_getLast?_of_append left, right⟩
  · rcases List.append_eq_append_iff.mp split with ⟨rest, rfl, rfl⟩ | ⟨rest, rfl, rfl⟩
    · exact .inl ⟨front, rest, rfl, left, any_isWord_head?_of_append right⟩
    · -- the border would be inside the word
      by_cases before : more = []
      · exact .inr ⟨[], back, by simp [before], rfl, right⟩
      by_cases behind : rest = []
      · exact .inl ⟨front, [], by simp [behind], left, rfl⟩
      have last := inside _ (List.mem_append_left rest (List.getLast_mem before))
      have first := inside _ (List.mem_append_right more (List.head_mem behind))
      rw [List.getLast?_append_of_ne_nil _ before, List.getLast?_eq_some_getLast before,
        List.head?_append_of_ne_nil _ behind, List.head?_eq_some_head behind, Option.any_some,
        Option.any_some, last, first] at border
      simp at border

theorem not_hasWord_of_isWord_eq_false (nonempty : word ≠ [])
    (inside : ∀ c ∈ word, isWord c = true) (outside : ∀ c ∈ text, isWord c = false) :
    ¬HasWord word text := by
  rintro ⟨front, back, rfl, -, -⟩
  obtain ⟨c, rest, rfl⟩ := List.exists_cons_of_ne_nil nonempty
  have member : c ∈ front ++ (c :: rest ++ back) := by simp
  have wrong := outside c member
  rw [inside c List.mem_cons_self] at wrong
  cases wrong

/-- A text of word characters is one word. -/
theorem HasWord.eq_of_isWord (has : HasWord word text) (inside : ∀ c ∈ text, isWord c = true) :
    word = text := by
  obtain ⟨front, back, rfl, left, right⟩ := has
  have noFront : front = [] := by
    by_contra some
    rw [List.getLast?_eq_some_getLast some, Option.any_some,
      inside _ (List.mem_append_left _ (List.getLast_mem some))] at left
    cases left
  have noBack : back = [] := by
    by_contra some
    rw [List.head?_eq_some_head some, Option.any_some,
      inside _ (by simp [List.head_mem some])] at right
    cases right
  simp [noFront, noBack]

end

end ImportSupply.Text
