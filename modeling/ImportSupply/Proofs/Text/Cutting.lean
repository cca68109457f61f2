import ImportSupply.Text.Basic
import Mathlib.Data.List.Basic
import Mathlib.Tactic.Common

/-!
# Trimming and cutting texts that were put together

Trimming takes off the blanks that were put around a text, and cutting at a separator gives back
the two sides that were joined with it.
-/

namespace ImportSupply.Text

/-! ## Trimming -/

theorem dropWhile_eq_self_of_head? {drop : Char → Bool} {text : List Char}
    (kept : text.head?.any drop = false) : text.dropWhile drop = text := by
  cases text with
  | nil => rfl
  | cons c rest => exact List.dropWhile_cons_of_neg (by simpa using kept)

/-- Trimming gives back a text that starts and ends with something else than a blank. -/
theorem trim_padded {front text back : List Char} (leading : ∀ c ∈ front, isBlank c = true)
    (trailing : ∀ c ∈ back, isBlank c = true) (nonempty : text ≠ [])
    (first : text.head?.any isBlank = false) (last : text.getLast?.any isBlank = false) :
    trim (front ++ text ++ back) = text := by
  have opened : (front ++ text ++ back).dropWhile isBlank = text ++ back := by
    rw [List.append_assoc, List.dropWhile_append_of_pos leading]
    refine dropWhile_eq_self_of_head? ?_
    obtain ⟨c, rest, rfl⟩ := List.exists_cons_of_ne_nil nonempty
    exact first
  have closed : (text ++ back).reverse.dropWhile isBlank = text.reverse := by
    rw [List.reverse_append, List.dropWhile_append_of_pos (by simpa using trailing)]
    refine dropWhile_eq_self_of_head? ?_
    rwa [List.head?_reverse]
  rw [trim, dropEnds, dropStart, opened, dropEnd, closed, List.reverse_reverse]

theorem trim_eq_self {text : List Char} (first : text.head?.any isBlank = false)
    (last : text.getLast?.any isBlank = false) : trim text = text := by
  cases text with
  | nil => rfl
  | cons c rest =>
    have trimmed := @trim_padded [] (c :: rest) [] (by simp) (by simp) (by simp) first last
    simpa using trimmed

/-- A text that does not end with a character of a class keeps its end. -/
theorem dropEnd_append {drop : Char → Bool} {text run : List Char}
    (last : text.getLast?.any drop = false) (inside : ∀ c ∈ run, drop c = true) :
    dropEnd drop (text ++ run) = text := by
  rw [dropEnd, List.reverse_append, List.dropWhile_append_of_pos (by simpa using inside),
    dropWhile_eq_self_of_head? (by rwa [List.head?_reverse]), List.reverse_reverse]

/-! ## Cutting -/

/-- A text is cut in one way at the first place of a character. -/
theorem eq_of_append_cons_eq {x : Char} {left left' right right' : List Char} (first : x ∉ left)
    (first' : x ∉ left') (same : left ++ x :: right = left' ++ x :: right') : left = left' := by
  induction left generalizing left' with
  | nil =>
    cases left' with
    | nil => rfl
    | cons c left' =>
      have head : x = c := (List.cons.inj same).1
      simp [head] at first'
  | cons c left ih =>
    cases left' with
    | nil =>
      have head : c = x := (List.cons.inj same).1
      simp [head] at first
    | cons d left' =>
      obtain ⟨rfl, tails⟩ := List.cons.inj same
      rw [ih (fun member => first (List.mem_cons_of_mem c member))
        (fun member => first' (List.mem_cons_of_mem c member)) tails]

/-- A text in which a character is rarer than in the separator is not cut. -/
theorem cutLast_eq_none_of_count {separator text : List Char} {x : Char}
    (rare : text.count x < separator.count x) : cutLast separator text = none := by
  induction text with
  | nil => rfl
  | cons c rest ih =>
    have fewer : rest.count x ≤ (c :: rest).count x := List.count_le_count_cons
    -- a separator in front would bring all its occurrences of the character
    have whole : separator.isPrefixOf? (c :: rest) = none := by
      by_contra cut
      obtain ⟨after, cut⟩ := Option.ne_none_iff_exists'.mp cut
      rw [List.isPrefixOf?_eq_some_iff_append_eq] at cut
      rw [← cut, List.count_append] at rare
      omega
    rw [cutLast, ih (by omega), whole, Option.map_none]

/-- The last place where a separator starts is where it was put, if no other starts behind it. -/
theorem cutLast_append {c : Char} {separator right : List Char}
    (last : cutLast (c :: separator) (separator ++ right) = none) (left : List Char) :
    cutLast (c :: separator) (left ++ c :: separator ++ right) = some (left, right) := by
  induction left with
  | nil =>
    have here : (c :: separator).isPrefixOf? (c :: (separator ++ right)) = some right :=
      List.isPrefixOf?_eq_some_iff_append_eq.mpr rfl
    rw [List.nil_append, List.cons_append, cutLast, last, here]
    rfl
  | cons d left ih =>
    rw [List.cons_append, List.cons_append, cutLast, ih]

theorem cutLast_singleton_append {x : Char} {right : List Char} (last : x ∉ right)
    (left : List Char) : cutLast [x] (left ++ x :: right) = some (left, right) := by
  have rare : right.count x < [x].count x := by
    rw [List.count_eq_zero.mpr last, List.count_singleton_self]
    exact Nat.one_pos
  have none : cutLast [x] right = none := cutLast_eq_none_of_count rare
  simpa using cutLast_append none left

/-- The two sides of a cut, with the separator between them, are the text. -/
theorem eq_append_of_cutFirst {separator text : List Char} {sides : List Char × List Char}
    (cut : cutFirst separator text = some sides) : text = sides.1 ++ (separator ++ sides.2) := by
  induction text generalizing sides with
  | nil => cases cut
  | cons c rest ih =>
    rw [cutFirst] at cut
    split at cut
    next after starts =>
      obtain rfl := Option.some.inj cut
      exact (List.isPrefixOf?_eq_some_iff_append_eq.mp starts).symm
    next =>
      obtain ⟨sides', cut', rfl⟩ := Option.map_eq_some_iff.mp cut
      rw [List.cons_append, ← ih cut']

theorem eq_append_of_cutLast {separator text : List Char} {sides : List Char × List Char}
    (cut : cutLast separator text = some sides) : text = sides.1 ++ (separator ++ sides.2) := by
  induction text generalizing sides with
  | nil => cases cut
  | cons c rest ih =>
    rw [cutLast] at cut
    split at cut
    next sides' cut' =>
      obtain rfl := Option.some.inj cut
      rw [List.cons_append, ← ih cut']
    next =>
      obtain ⟨after, starts, rfl⟩ := Option.map_eq_some_iff.mp cut
      exact (List.isPrefixOf?_eq_some_iff_append_eq.mp starts).symm

/-- A text that holds a separator is cut. -/
theorem cutFirst_ne_none {separator : List Char} (nonempty : separator ≠ [])
    (left right : List Char) : cutFirst separator (left ++ (separator ++ right)) ≠ none := by
  induction left with
  | nil =>
    have starts : separator.isPrefixOf? (separator ++ right) = some right :=
      List.isPrefixOf?_eq_some_iff_append_eq.mpr rfl
    rw [List.nil_append]
    obtain ⟨c, rest, whole⟩ := List.exists_cons_of_ne_nil
      (List.append_ne_nil_of_left_ne_nil nonempty right)
    rw [whole] at starts ⊢
    simp [cutFirst, starts]
  | cons c left ih =>
    rw [List.cons_append, cutFirst]
    split
    · simp
    · simpa using ih

theorem cutFirst_singleton_append {x : Char} {left : List Char} (first : x ∉ left)
    (right : List Char) : cutFirst [x] (left ++ x :: right) = some (left, right) := by
  induction left with
  | nil => simp [cutFirst, List.isPrefixOf?]
  | cons c left ih =>
    rw [List.mem_cons, not_or] at first
    simp [cutFirst, List.isPrefixOf?, first.1, ih first.2]

theorem cutFirst_singleton_eq_none {x : Char} {text : List Char} (absent : x ∉ text) :
    cutFirst [x] text = none := by
  induction text with
  | nil => rfl
  | cons c text ih =>
    rw [List.mem_cons, not_or] at absent
    simp [cutFirst, List.isPrefixOf?, absent.1, ih absent.2]

/-- The pieces between the separators of a text hold no separator. -/
theorem not_mem_of_mem_splitOn {x : Char} {text piece : List Char}
    (member : piece ∈ text.splitOn x) : x ∉ piece := by
  induction text generalizing piece with
  | nil =>
    obtain rfl : piece = [] := by simpa using member
    exact List.not_mem_nil
  | cons c rest ih =>
    rw [List.splitOn_cons_eq_if_modifyHead] at member
    split at member
    next =>
      rcases List.mem_cons.mp member with rfl | member
      · exact List.not_mem_nil
      · exact ih member
    next other =>
      obtain ⟨first, others, split⟩ := List.exists_cons_of_ne_nil (List.splitOn_ne_nil x rest)
      rw [split] at ih member
      rcases List.mem_cons.mp member with rfl | member
      · rw [List.mem_cons, not_or]
        exact ⟨fun same => other (by simp [same]), ih List.mem_cons_self⟩
      · exact ih (List.mem_cons_of_mem first member)

/-! ## Runs -/

section

variable {accept : Char → Bool} {run rest run' rest' : List Char}

theorem takeWhile_append_run (inside : ∀ c ∈ run, accept c = true)
    (stops : rest.head?.any accept = false) : (run ++ rest).takeWhile accept = run := by
  rw [List.takeWhile_append_of_pos inside]
  cases rest with
  | nil => simp
  | cons c rest =>
    have outside : accept c = false := by simpa using stops
    simp [outside]

theorem dropWhile_append_run (inside : ∀ c ∈ run, accept c = true)
    (stops : rest.head?.any accept = false) : (run ++ rest).dropWhile accept = rest := by
  rw [List.dropWhile_append_of_pos inside]
  exact dropWhile_eq_self_of_head? stops

/-- A text starts with one run of a class. -/
theorem eq_of_append_run (inside : ∀ c ∈ run, accept c = true)
    (stops : rest.head?.any accept = false) (inside' : ∀ c ∈ run', accept c = true)
    (stops' : rest'.head?.any accept = false) (same : run ++ rest = run' ++ rest') :
    run = run' ∧ rest = rest' := by
  constructor
  · rw [← takeWhile_append_run inside stops, same, takeWhile_append_run inside' stops']
  · rw [← dropWhile_append_run inside stops, same, dropWhile_append_run inside' stops']

/-- A text ends outside a class if its last part is outside it. -/
theorem getLast?_any_append {text tail : List Char} (nonempty : tail ≠ [])
    (outside : ∀ c ∈ tail, accept c = false) : (text ++ tail).getLast?.any accept = false := by
  rw [List.getLast?_append_of_ne_nil _ nonempty, List.getLast?_eq_some_getLast nonempty]
  exact outside _ (List.getLast_mem nonempty)

/-- Two texts that end outside a class do so together. -/
theorem getLast?_any_append_both {text tail : List Char}
    (first : text.getLast?.any accept = false) (second : tail.getLast?.any accept = false) :
    (text ++ tail).getLast?.any accept = false := by
  by_cases empty : tail = []
  · rwa [empty, List.append_nil]
  · rwa [List.getLast?_append_of_ne_nil _ empty]

/-- A text that ends outside a run is not cut off inside it. -/
theorem exists_append_of_getLast? {front back : List Char} (same : front ++ back = run ++ rest)
    (inside : ∀ c ∈ run, accept c = true) (nonempty : front ≠ [])
    (edge : front.getLast?.any accept = false) :
    ∃ more, front = run ++ more ∧ more ++ back = rest := by
  rcases List.append_eq_append_iff.mp same with ⟨more, longer, -⟩ | ⟨more, rfl, rfl⟩
  · have last := front.getLast_mem nonempty
    rw [List.getLast?_eq_some_getLast nonempty] at edge
    simp [inside _ (longer ▸ List.mem_append_left more last)] at edge
  · exact ⟨more, rfl, rfl⟩

/-- A text that is followed by something outside a run is not cut off inside it. -/
theorem exists_append_of_head? {front back : List Char} (same : front ++ back = run ++ rest)
    (inside : ∀ c ∈ run, accept c = true) (stops : back.head?.any accept = false) :
    ∃ more, front = run ++ more ∧ more ++ back = rest := by
  rcases List.append_eq_append_iff.mp same with ⟨more, rfl, rfl⟩ | ⟨more, rfl, rfl⟩
  · cases more with
    | nil => exact ⟨[], by simp, by simp⟩
    | cons c more => simp [inside c (by simp)] at stops
  · exact ⟨more, rfl, rfl⟩

end

/-! ## Words -/

/-- Of words none of which starts with another one, a text starts with at most one. -/
theorem eq_of_append_word {words : List String}
    (apart : ∀ word ∈ words, ∀ other ∈ words,
      word.toList.isPrefixOf other.toList = true → word = other)
    {word other : String} (own : word ∈ words) (own' : other ∈ words) {rest rest' : List Char}
    (same : word.toList ++ rest = other.toList ++ rest') : word = other ∧ rest = rest' := by
  obtain rfl : word = other := by
    rcases List.append_eq_append_iff.mp same with ⟨more, longer, -⟩ | ⟨more, longer, -⟩
    · exact apart word own other own' (by simp [longer])
    · exact (apart other own' word own (by simp [longer])).symm
  exact ⟨rfl, List.append_cancel_left same⟩

/-! ## Joining -/

/-- A class of characters that holds of all parts and of what is put between them holds of a joined
text. -/
theorem forall_mem_intercalate {accept : Char → Bool} {separator : List Char}
    (between : ∀ c ∈ separator, accept c = true) {parts : List (List Char)}
    (inside : ∀ part ∈ parts, ∀ c ∈ part, accept c = true) :
    ∀ c ∈ separator.intercalate parts, accept c = true := by
  induction parts with
  | nil => simp
  | cons part parts ih =>
    have rest := ih fun part' member => inside part' (List.mem_cons_of_mem part member)
    cases parts with
    | nil => simpa using inside part List.mem_cons_self
    | cons next parts =>
      intro c member
      rw [List.intercalate_cons_cons, List.mem_append, List.mem_append] at member
      rcases member with (member | member) | member
      · exact inside part List.mem_cons_self c member
      · exact between c member
      · exact rest c member

end ImportSupply.Text
