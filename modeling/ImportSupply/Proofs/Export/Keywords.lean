import ImportSupply.Proofs.Export.StatementSyntax

/-!
# Keywords of exports

Between the word `export` and the name of an export stand keywords with separators behind them
(`Keyed`). No keyword starts with another one, so of two readings of one text one goes on where the
other ends (`Keyed.compare`). The keywords of two forms of exports agree only if the forms do, but
for one case: `const enum` starts as a variable does (`Form.eq_or_enum`).
-/

namespace ImportSupply.Export

open Pattern Literal

/-! ## Readings as keywords -/

theorem Keyword.mem_startWords (keyword : Keyword) : keyword.word ∈ startWords := by
  cases keyword <;> decide

theorem Keyword.eq_of_word_eq {keyword other : Keyword} (same : keyword.word = other.word) :
    keyword = other := by
  revert same
  cases keyword <;> cases other <;> decide

/-- The characters that stand between a keyword and what follows it. -/
def isSeparator (c : Char) : Bool :=
  Text.isBlank c || c == '*'

theorem isSeparator_of_isBlank {c : Char} (blank : Text.isBlank c = true) :
    isSeparator c = true := by
  rw [isSeparator, blank, Bool.true_or]

theorem isTail_eq_false_of_isSeparator {c : Char} (separates : isSeparator c = true) :
    Name.isTail c = false := by
  rw [isSeparator, Bool.or_eq_true, beq_iff_eq] at separates
  rcases separates with blank | rfl
  · exact Name.isTail_eq_false_of_isBlank blank
  · decide

/-- A text that consists of keywords with separators, in front of a core. -/
inductive Keyed : List Keyword → List Char → List Char → Prop
  | nil {core : List Char} : Keyed [] [] core
  | cons {keyword : Keyword} {keywords : List Keyword} {separator opening core : List Char} :
      (∀ c ∈ separator, isSeparator c = true) → (keyword ≠ .function → separator ≠ []) →
      (opening ++ core).head?.any isSeparator = false → Keyed keywords opening core →
      Keyed (keyword :: keywords) (keyword.word.toList ++ (separator ++ opening)) core

namespace Keyed

variable {keywords others : List Keyword} {opening opening' core core' : List Char}

/-- A keyword starts with no separator. -/
theorem head? (keyed : Keyed keywords opening core) (stops : core.head?.any isSeparator = false) :
    (opening ++ core).head?.any isSeparator = false := by
  cases keyed with
  | nil => exact stops
  | @cons keyword =>
    have first : keyword.word.toList ≠ [] ∧ keyword.word.toList.head?.any isSeparator = false := by
      cases keyword <;> decide
    rw [List.append_assoc, List.head?_append_of_ne_nil _ first.1]
    exact first.2

theorem cons_gap (keyword : Keyword) {gap : List Char} (isGap : IsGap gap)
    (keyed : Keyed keywords opening core) (stops : core.head?.any isSeparator = false) :
    Keyed (keyword :: keywords) (keyword.word.toList ++ (gap ++ opening)) core :=
  .cons (fun c member => isSeparator_of_isBlank (isGap.2 c member)) (fun _ => isGap.1)
    (keyed.head? stops) keyed

/-- A core that starts with a mark is no keyword. -/
theorem eq_nil_of_mark {mark : Char} {rest : List Char} (outside : Text.isWord mark = false)
    (keyed : Keyed keywords opening core) (same : opening ++ core = mark :: rest) :
    keywords = [] ∧ core = mark :: rest := by
  cases keyed with
  | nil => exact ⟨rfl, same⟩
  | @cons keyword =>
    exfalso
    obtain ⟨c, word, cons⟩ : ∃ c word, keyword.word.toList = c :: word := by
      cases keyword <;> exact ⟨_, _, rfl⟩
    have inside := Keyword.isWord_of_mem c (cons ▸ List.mem_cons_self)
    rw [cons] at same
    rw [(List.cons.inj same).1, outside] at inside
    cases inside

/-- Of two readings of one text as keywords and a core, one goes on where the other ends. -/
theorem compare (first : Keyed keywords opening core) (second : Keyed others opening' core')
    (same : opening ++ core = opening' ++ core') :
    (∃ more between, others = keywords ++ more ∧ opening' = opening ++ between ∧
      Keyed more between core' ∧ core = between ++ core') ∨
    ∃ more between, keywords = others ++ more ∧ opening = opening' ++ between ∧
      Keyed more between core ∧ core' = between ++ core := by
  induction first generalizing others opening' with
  | nil => exact .inl ⟨others, opening', rfl, rfl, second, same⟩
  | @cons keyword keywords separator opening core separates spaced stops first ih =>
    cases second with
    | nil =>
      exact .inr ⟨keyword :: keywords, _, rfl, rfl, .cons separates spaced stops first, same.symm⟩
    | @cons keyword' others separator' opening' core' separates' spaced' stops' second =>
      have words : keyword.word.toList ++ (separator ++ (opening ++ core)) =
          keyword'.word.toList ++ (separator' ++ (opening' ++ core')) := by
        simpa using same
      -- both readings start with the same keyword, as no keyword starts with another one
      obtain ⟨word, behind⟩ :=
        eq_of_mem_startWords keyword.mem_startWords keyword'.mem_startWords words
      obtain rfl := Keyword.eq_of_word_eq word
      obtain ⟨rfl, rest⟩ := Text.eq_of_append_run separates stops separates' stops' behind
      rcases ih second rest with ⟨more, between, rfl, rfl, keyed, rfl⟩ |
        ⟨more, between, rfl, rfl, keyed, rfl⟩
      · exact .inl ⟨more, between, rfl, by simp, keyed, rfl⟩
      · exact .inr ⟨more, between, rfl, by simp, keyed, rfl⟩

/-- A name that is read where one keyword is, is that keyword. -/
theorem eq_word_of_singleton {keyword : Keyword} (spaced : keyword ≠ .function)
    (keyed : Keyed [keyword] opening core) {named rest : List Char}
    (bindable : Name.isBindable named = true) (stops : rest.head?.any Name.isTail = false)
    (same : named ++ rest = opening ++ core) : named = keyword.word.toList := by
  cases keyed with
  | @cons _ _ separator _ _ separates nonempty _ last =>
    cases last
    obtain ⟨c, separator, rfl⟩ := List.exists_cons_of_ne_nil (nonempty spaced)
    have outside : ((c :: separator) ++ [] ++ core).head?.any Name.isTail = false := by
      simpa using isTail_eq_false_of_isSeparator (separates c List.mem_cons_self)
    have inside : ∀ c ∈ keyword.word.toList, Name.isTail c = true := by
      intro c member
      rw [Name.isTail, Keyword.isWord_of_mem c member, Bool.true_or]
    rw [List.append_assoc] at same
    exact (Text.eq_of_append_run (Name.isBindable_iff.mp bindable).2 stops inside outside same).1

end Keyed

/-! ## Keywords of forms -/

/-- Where the keywords of one form start those of another one, they are the same, or a variable is
read where an enumeration of constants stands. -/
theorem Form.eq_or_enum {form other : Form} {keywords more : List Keyword}
    (known : keywords ∈ form.keywords) (known' : keywords ++ more ∈ other.keywords) :
    more = [] ∧ form = other ∨
      more = [.enumeration] ∧ form = .declared .binding ∧ other = .declared .enumeration := by
  have all : ∀ known' : List Keyword, known' ∈ other.keywords → ∀ known ∈ form.keywords,
      known.isPrefixOf known' = true →
        known'.drop known.length = [] ∧ form = other ∨
          known'.drop known.length = [.enumeration] ∧ form = .declared .binding ∧
            other = .declared .enumeration := by
    rcases form with kind | _ | _ <;> rcases other with kind' | _ | _ <;>
      first
        | (cases kind <;> cases kind' <;> decide)
        | (cases kind <;> decide)
        | (cases kind' <;> decide)
        | decide
  have here := all _ known' _ known (by simp)
  rwa [List.drop_left] at here

theorem Form.ne_nil_of_mem_keywords {form : Form} {keywords : List Keyword}
    (known : keywords ∈ form.keywords) : keywords ≠ [] := by
  have all : ∀ keywords ∈ form.keywords, keywords ≠ [] := by
    rcases form with kind | _ | _
    · cases kind <;> decide
    · decide
    · decide
  exact all keywords known

end ImportSupply.Export
