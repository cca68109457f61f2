import ImportSupply.Name
import ImportSupply.Text.Basic
import Mathlib.Tactic.Common

/-!
# Classes of characters

How the classes that scripts are read with relate: blanks are no part of a name, and the characters
of a plain identifier are part of one in every reading.
-/

namespace ImportSupply

/-- What is said of the characters of a list is decided by going through the list, not through all
characters. -/
instance decidableForallMem (list : List Char) (p : Char → Prop) [DecidablePred p] :
    Decidable (∀ c ∈ list, p c) :=
  List.decidableBAll p list

namespace Text

/-- Whether no code point lies in a range of both tables. -/
def disjointRanges (ranges others : List (Nat × Nat)) : Bool :=
  ranges.all fun range => others.all fun other => range.2 < other.1 || other.2 < range.1

theorem inRanges_eq_false_of_disjointRanges {ranges others : List (Nat × Nat)} {point : Nat}
    (disjoint : disjointRanges ranges others = true) (inside : inRanges ranges point = true) :
    inRanges others point = false := by
  obtain ⟨range, member, bounds⟩ := List.any_eq_true.mp inside
  refine List.any_eq_false.mpr fun other otherMember => ?_
  have apart := List.all_eq_true.mp (List.all_eq_true.mp disjoint range member) other otherMember
  simp only [Bool.and_eq_true, Bool.or_eq_true, decide_eq_true_eq] at bounds apart ⊢
  omega

theorem disjointRanges_blank_alphabetic : disjointRanges blankRanges alphabeticRanges = true := by
  decide +kernel

theorem disjointRanges_blank_numeric : disjointRanges blankRanges numericRanges = true := by
  decide +kernel

theorem disjointRanges_blank_mark : disjointRanges blankRanges markRanges = true := by
  decide +kernel

theorem disjointRanges_blank_decimalDigit :
    disjointRanges blankRanges decimalDigitRanges = true := by
  decide +kernel

theorem disjointRanges_blank_connector : disjointRanges blankRanges connectorRanges = true := by
  decide +kernel

theorem isAlpha_iff {c : Char} : c.isAlpha = true ↔
    65 ≤ c.toNat ∧ c.toNat ≤ 90 ∨ 97 ≤ c.toNat ∧ c.toNat ≤ 122 := by
  have classes : c.isAlpha =
      (decide (65 ≤ c.val ∧ c.val ≤ 90) || decide (97 ≤ c.val) && decide (c.val ≤ 122)) :=
    rfl
  rw [classes]
  simp only [Bool.or_eq_true, Bool.and_eq_true, decide_eq_true_eq, UInt32.le_iff_toNat_le]
  exact Iff.rfl

theorem isDigit_iff {c : Char} : c.isDigit = true ↔ 48 ≤ c.toNat ∧ c.toNat ≤ 57 := by
  simp only [Char.isDigit, Bool.and_eq_true, decide_eq_true_eq, UInt32.le_iff_toNat_le,
    ge_iff_le]
  exact Iff.rfl

/-- A blank is neither a letter nor a number. -/
theorem isAlphanumeric_eq_false_of_isBlank {c : Char} (blank : isBlank c = true) :
    isAlphanumeric c = false := by
  unfold isBlank at blank
  unfold isAlphanumeric isAlphabetic isNumeric
  split at blank
  next ascii =>
    rw [if_pos ascii, if_pos ascii, Bool.or_eq_false_iff, ← Bool.not_eq_true, ← Bool.not_eq_true,
      isAlpha_iff, isDigit_iff]
    simp only [Bool.or_eq_true, beq_iff_eq, Bool.and_eq_true, decide_eq_true_eq] at blank
    rcases blank with rfl | blank
    · decide
    · omega
  next beyond =>
    -- beyond ASCII the classes are tables, and no range of one meets a range of another
    rw [if_neg beyond, if_neg beyond,
      inRanges_eq_false_of_disjointRanges disjointRanges_blank_alphabetic blank,
      inRanges_eq_false_of_disjointRanges disjointRanges_blank_numeric blank]
    rfl

/-- A blank is in no word. -/
theorem isWord_eq_false_of_isBlank {c : Char} (blank : isBlank c = true) : isWord c = false := by
  have noLetter := isAlphanumeric_eq_false_of_isBlank blank
  have other : c ≠ '_' := by
    rintro rfl
    revert blank
    decide
  unfold isBlank at blank
  unfold isAlphanumeric isAlphabetic isNumeric at noLetter
  unfold isWord
  split at blank
  next ascii =>
    rw [if_pos ascii, if_pos ascii] at noLetter
    rw [if_pos ascii, Char.isAlphanum, noLetter, beq_eq_false_iff_ne.mpr other]
    rfl
  next beyond =>
    rw [if_neg beyond, isAlphabetic, isMark, isDecimalDigit, if_neg beyond, if_neg beyond,
      if_neg beyond, inRanges_eq_false_of_disjointRanges disjointRanges_blank_alphabetic blank,
      inRanges_eq_false_of_disjointRanges disjointRanges_blank_mark blank,
      inRanges_eq_false_of_disjointRanges disjointRanges_blank_decimalDigit blank,
      inRanges_eq_false_of_disjointRanges disjointRanges_blank_connector blank]
    rfl

end Text

namespace Name

theorem isTail_eq_false_of_isBlank {c : Char} (blank : Text.isBlank c = true) :
    isTail c = false := by
  have other : c ≠ '$' := by
    rintro rfl
    revert blank
    decide
  simp [isTail, Text.isWord_eq_false_of_isBlank blank, other]

theorem isBlank_eq_false_of_isTail {c : Char} (tail : isTail c = true) :
    Text.isBlank c = false := by
  by_contra blank
  rw [isTail_eq_false_of_isBlank (by simpa using blank)] at tail
  cases tail

theorem isRunChar_eq_false_of_isBlank {c : Char} (blank : Text.isBlank c = true) :
    isRunChar c = false := by
  have other : c ≠ '_' ∧ c ≠ '$' := by
    constructor <;> rintro rfl <;> revert blank <;> decide
  simp [isRunChar, Text.isAlphanumeric_eq_false_of_isBlank blank, other]

/-- The characters of an ASCII identifier. -/
def isIdentifierChar (c : Char) : Bool :=
  c.isAlphanum || c == '_' || c == '$'

/-- ASCII identifiers: a letter, `_` or `$`, then letters, digits, `_` and `$`. -/
def isIdentifier : List Char → Bool
  | [] => false
  | c :: rest => isHead c && rest.all isIdentifierChar

theorem isIdentifierChar_of_isHead {c : Char} (head : isHead c = true) :
    isIdentifierChar c = true := by
  simp only [isHead, isIdentifierChar, Char.isAlphanum, Bool.or_eq_true] at head ⊢
  tauto

theorem isHead_and_all_iff {accept : Char → Bool} (heads : ∀ c, isHead c = true → accept c = true)
    {c : Char} {rest : List Char} : (isHead c && rest.all accept) = true ↔
      (∃ first more, c :: rest = first :: more ∧ isHead first = true) ∧
        ∀ d ∈ c :: rest, accept d = true := by
  rw [Bool.and_eq_true, List.all_eq_true, List.forall_mem_cons]
  constructor
  · rintro ⟨head, all⟩
    exact ⟨⟨c, rest, rfl, head⟩, heads c head, all⟩
  · rintro ⟨⟨_, _, same, head⟩, -, all⟩
    obtain ⟨rfl, rfl⟩ := List.cons.inj same
    exact ⟨head, all⟩

/-- An ASCII identifier is a run of its characters and does not start with a digit. -/
theorem isIdentifier_iff {text : List Char} : isIdentifier text = true ↔
    (∃ c rest, text = c :: rest ∧ isHead c = true) ∧ ∀ c ∈ text, isIdentifierChar c = true := by
  cases text with
  | nil => simp [isIdentifier]
  | cons c rest => exact isHead_and_all_iff fun _ => isIdentifierChar_of_isHead

theorem toNat_lt_of_isIdentifierChar {c : Char} (member : isIdentifierChar c = true) :
    c.toNat < 0x80 := by
  simp only [isIdentifierChar, Char.isAlphanum, Bool.or_eq_true, beq_iff_eq, Text.isAlpha_iff,
    Text.isDigit_iff] at member
  rcases member with (letter | rfl) | rfl
  · omega
  · decide
  · decide

theorem isRunChar_of_isIdentifierChar {c : Char} (member : isIdentifierChar c = true) :
    isRunChar c = true := by
  have ascii := toNat_lt_of_isIdentifierChar member
  simpa [isRunChar, Text.isAlphanumeric, Text.isAlphabetic, Text.isNumeric, ascii,
    isIdentifierChar, Char.isAlphanum] using member

theorem isTail_of_isIdentifierChar {c : Char} (member : isIdentifierChar c = true) :
    isTail c = true := by
  have ascii := toNat_lt_of_isIdentifierChar member
  simpa [isTail, Text.isWord, ascii, isIdentifierChar] using member

theorem isTail_of_isHead {c : Char} (head : isHead c = true) : isTail c = true :=
  isTail_of_isIdentifierChar (isIdentifierChar_of_isHead head)

/-- A name that a statement can bind has a first character of its own class. -/
theorem isBindable_iff {text : List Char} : isBindable text = true ↔
    (∃ c rest, text = c :: rest ∧ isHead c = true) ∧ ∀ c ∈ text, isTail c = true := by
  cases text with
  | nil => simp [isBindable]
  | cons c rest => exact isHead_and_all_iff fun _ => isTail_of_isHead

theorem isBlank_eq_false_of_isIdentifierChar {c : Char} (member : isIdentifierChar c = true) :
    Text.isBlank c = false := by
  by_contra blank
  rw [Bool.not_eq_false] at blank
  have run := isRunChar_of_isIdentifierChar member
  rw [isRunChar_eq_false_of_isBlank blank] at run
  exact Bool.false_ne_true run

theorem isBindable_of_isIdentifier {text : List Char} (identifier : isIdentifier text = true) :
    isBindable text = true := by
  cases text with
  | nil => exact identifier
  | cons c rest =>
    simp only [isIdentifier, isBindable, Bool.and_eq_true, List.all_eq_true] at identifier ⊢
    exact ⟨identifier.1, fun d member => isTail_of_isIdentifierChar (identifier.2 d member)⟩

/-- Blanks go on no name. -/
theorem head?_isTail_of_blank {pad : List Char} (padded : ∀ c ∈ pad, Text.isBlank c = true) :
    pad.head?.any isTail = false := by
  cases pad with
  | nil => rfl
  | cons c pad => exact isTail_eq_false_of_isBlank (padded c List.mem_cons_self)

/-- Blanks and a mark behind them go on no name. -/
theorem head?_isTail_of_padded {pad : List Char} (padded : ∀ c ∈ pad, Text.isBlank c = true)
    {mark : Char} (outside : isTail mark = false) (rest : List Char) :
    (pad ++ mark :: rest).head?.any isTail = false := by
  cases pad with
  | nil => exact outside
  | cons c pad => exact isTail_eq_false_of_isBlank (padded c List.mem_cons_self)

end Name

end ImportSupply
