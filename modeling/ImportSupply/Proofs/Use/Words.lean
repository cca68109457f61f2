import ImportSupply.Use
import ImportSupply.Proofs.Text.Classes
import Mathlib.Data.List.Basic

/-!
# The words of joined texts

A character that neither belongs to a run nor is a dot separates the words on its two sides
(`Word.ofText_append_separator`), so the words of a text put together from names and separators are
its names. From the words follow the used names: which they are (`mem_usedNames`), and that none
is listed twice (`nodup_usedNames`). They keep the order of first occurrences, as every list without
its repetitions does (`pairwise_idxOf_eraseDups`).
-/

namespace ImportSupply

namespace Word

/-- Characters that separate the words on their two sides. -/
def isSeparator (c : Char) : Bool :=
  !Name.isRunChar c && c != '.'

theorem isSeparator_iff {c : Char} :
    isSeparator c = true ↔ Name.isRunChar c = false ∧ c ≠ '.' := by
  simp [isSeparator]

/-- Behind a separator the words are read afresh. -/
theorem readFrom_append_separator {c : Char} (separator : isSeparator c = true) (dots : Nat)
    (reversed text rest : List Char) :
    readFrom dots reversed (text ++ c :: rest) = readFrom dots reversed text ++ ofText rest := by
  obtain ⟨outside, noDot⟩ := isSeparator_iff.mp separator
  induction text generalizing dots reversed with
  | nil => simp [readFrom, ofText, outside, noDot]
  | cons d text ih =>
    simp only [List.cons_append, readFrom]
    split
    · exact ih dots (d :: reversed)
    · rw [ih, List.append_assoc]

theorem ofText_append_separator {c : Char} (separator : isSeparator c = true)
    (text rest : List Char) : ofText (text ++ c :: rest) = ofText text ++ ofText rest :=
  readFrom_append_separator separator 0 [] text rest

theorem ofText_cons_separator {c : Char} (separator : isSeparator c = true) (rest : List Char) :
    ofText (c :: rest) = ofText rest :=
  ofText_append_separator separator [] rest

/-- Separators in front of a text add no word. -/
theorem ofText_separators_append {front : List Char}
    (separators : ∀ c ∈ front, isSeparator c = true) (rest : List Char) :
    ofText (front ++ rest) = ofText rest := by
  induction front with
  | nil => rfl
  | cons c front ih =>
    rw [List.cons_append, ofText_cons_separator (separators c List.mem_cons_self)]
    exact ih fun d member => separators d (List.mem_cons_of_mem c member)

/-- A text without run characters has no words, whatever dots stand before it. -/
theorem readFrom_eq_nil {text : List Char} (outside : ∀ c ∈ text, Name.isRunChar c = false)
    (dots : Nat) : readFrom dots [] text = [] := by
  induction text generalizing dots with
  | nil => rfl
  | cons c text ih =>
    have tail := ih fun d member => outside d (List.mem_cons_of_mem c member)
    simp [readFrom, outside c List.mem_cons_self, finish, tail]

theorem ofText_eq_nil {text : List Char} (outside : ∀ c ∈ text, Name.isRunChar c = false) :
    ofText text = [] :=
  readFrom_eq_nil outside 0

theorem readFrom_run {text : List Char} (inside : ∀ c ∈ text, Name.isRunChar c = true)
    (dots : Nat) (reversed : List Char) :
    readFrom dots reversed text = finish dots (text.reverse ++ reversed) := by
  induction text generalizing reversed with
  | nil => rfl
  | cons c text ih =>
    rw [readFrom, if_pos (inside c List.mem_cons_self),
      ih (fun d member => inside d (List.mem_cons_of_mem c member))]
    simp

/-- A run is one word. -/
theorem ofText_run {text : List Char} (inside : ∀ c ∈ text, Name.isRunChar c = true)
    (nonempty : text ≠ []) : ofText text = [⟨0, text⟩] := by
  rw [ofText, readFrom_run inside, finish]
  simp [nonempty]

theorem ofText_identifier {text : List Char} (identifier : Name.isIdentifier text = true) :
    ofText text = [⟨0, text⟩] := by
  obtain ⟨⟨c, rest, rfl, -⟩, all⟩ := Name.isIdentifier_iff.mp identifier
  exact ofText_run (fun d member => Name.isRunChar_of_isIdentifierChar (all d member)) (by simp)

/-- A word holds characters of runs only: what is read so far does, and each step keeps that. -/
theorem isRunChar_of_mem_readFrom {dots : Nat} {reversed text : List Char}
    (inside : ∀ c ∈ reversed, Name.isRunChar c = true) {word : Word}
    (member : word ∈ readFrom dots reversed text) :
    ∀ c ∈ word.characters, Name.isRunChar c = true := by
  have finished {dots : Nat} {reversed : List Char}
      (inside : ∀ c ∈ reversed, Name.isRunChar c = true) (member : word ∈ finish dots reversed) :
      ∀ c ∈ word.characters, Name.isRunChar c = true := by
    rw [finish] at member
    split at member
    · cases member
    · obtain rfl := List.mem_singleton.mp member
      simpa using inside
  induction text generalizing dots reversed with
  | nil => exact finished inside member
  | cons c text ih =>
    rw [readFrom] at member
    split at member
    next run => exact ih (List.forall_mem_cons.mpr ⟨run, inside⟩) member
    next =>
      rcases List.mem_append.mp member with member | member
      · exact finished inside member
      · exact ih (List.forall_mem_nil _) member

end Word

theorem idxOf_lt_of_idxOf_filter_lt {α : Type} [BEq α] [LawfulBEq α] {keep : α → Bool}
    {list : List α} {first second : α} (kept : keep first = true) (keptToo : keep second = true)
    (before : (list.filter keep).idxOf first < (list.filter keep).idxOf second) :
    list.idxOf first < list.idxOf second := by
  induction list with
  | nil => exact before
  | cons head rest ih => grind

/-- Without its repetitions a list keeps the order of first occurrences. -/
theorem pairwise_idxOf_eraseDups {α : Type} [BEq α] [LawfulBEq α] (list : List α) :
    list.eraseDups.Pairwise fun earlier later => list.idxOf earlier < list.idxOf later := by
  match list with
  | [] => exact .nil
  | first :: rest =>
    -- the recursion rids the rest of the first element before it goes on
    have kept {later : α} (member : later ∈ (rest.filter fun other => !other == first).eraseDups) :
        (!later == first) = true :=
      (List.mem_filter.mp (List.mem_eraseDups.mp member)).2
    have apart {later : α} (keeps : (!later == first) = true) : first ≠ later := by
      rintro rfl
      simp at keeps
    rw [List.eraseDups_cons, List.pairwise_cons]
    constructor
    · intro later member
      rw [List.idxOf_cons_self, List.idxOf_cons_ne rest (apart (kept member))]
      exact Nat.succ_pos _
    · refine (pairwise_idxOf_eraseDups _).imp_of_mem fun before behind order => ?_
      rw [List.idxOf_cons_ne rest (apart (kept before)),
        List.idxOf_cons_ne rest (apart (kept behind))]
      exact Nat.succ_lt_succ (idxOf_lt_of_idxOf_filter_lt (kept before) (kept behind) order)
termination_by list.length
decreasing_by
  have shorter := List.length_filter_le (fun other => !other == first) rest
  simp only [List.length_cons]
  omega

theorem nodup_eraseDups {α : Type} [BEq α] [LawfulBEq α] (list : List α) :
    list.eraseDups.Nodup := by
  refine (pairwise_idxOf_eraseDups list).imp ?_
  rintro earlier _ order rfl
  exact Nat.lt_irrefl _ order

/-- The used names are the known names of the free words. -/
theorem mem_usedNames {known : String → Bool} {text : List Char} {name : String} :
    name ∈ usedNames known text ↔
      known name = true ∧ ∃ word ∈ Word.ofText text, word.isFree = true ∧ word.name = name := by
  simp only [usedNames, List.mem_eraseDups, List.mem_filter, List.mem_map]
  constructor
  · rintro ⟨⟨word, ⟨member, free⟩, same⟩, isKnown⟩
    exact ⟨isKnown, word, member, free, same⟩
  · rintro ⟨isKnown, word, member, free, same⟩
    exact ⟨⟨word, ⟨member, free⟩, same⟩, isKnown⟩

/-- A used name holds no blank. -/
theorem isBlank_eq_false_of_mem_usedNames {known : String → Bool} {text : List Char} {name : String}
    (used : name ∈ usedNames known text) : ∀ c ∈ name.toList, Text.isBlank c = false := by
  obtain ⟨-, word, member, -, rfl⟩ := mem_usedNames.mp used
  intro c own
  rw [Word.name, String.toList_ofList] at own
  have run := Word.isRunChar_of_mem_readFrom (List.forall_mem_nil _) member c own
  by_contra blank
  rw [Name.isRunChar_eq_false_of_isBlank (by simpa using blank)] at run
  cases run

theorem nodup_usedNames (known : String → Bool) (text : List Char) :
    (usedNames known text).Nodup :=
  nodup_eraseDups _

end ImportSupply
