import ImportSupply.Literal.Mask
import Mathlib.Data.List.Forall2

/-!
# The cursor of a scan

The output of a scan keeps in step with its cursor, however many characters a move reads and
wherever the script ends:

* **moves** — what a move shows veils, character for character, what it reads: as it is, or with
  spaces for characters that end no line (`Veils`, `Move.aligned_facing`). A move that reaches past
  the end of the script shows nothing for what is not there;
* **runs** — so at every cursor that a scan visits, the buffer veils what lies before the cursor
  (`Cursor.Visits.forall₂_shown`), and at the last one, the whole script (`forall₂_mask`).
-/

namespace ImportSupply.Literal

/-- What may show for a character: itself, or a space if it ends no line. -/
def Veils (c shown : Char) : Prop :=
  shown = c ∨ shown = ' ' ∧ c ≠ '\r' ∧ c ≠ '\n'

theorem Veils.refl (c : Char) : Veils c c :=
  .inl rfl

theorem veils_blank (c : Char) : Veils c (blank c) := by
  unfold blank
  split
  next => exact .inl rfl
  next inLine =>
    rw [not_or] at inLine
    exact .inr ⟨rfl, inLine.2, inLine.1⟩

/-! ## Moves -/

namespace Move

/-- What a scan does at a character, given its modes and the text behind the character. -/
def facing (stack : List Mode) (c : Char) (rest : List Char) : Move :=
  ofStack stack c rest.head? rest.tail.head?

/-- A move that shows what it reads, or veils it. -/
def Aligned (move : Move) (text : List Char) : Prop :=
  List.Forall₂ Veils (text.take move.count) move.shown

theorem Aligned.single {c shown : Char} (veils : Veils c shown) (stack : List Mode)
    (rest : List Char) : Aligned { count := 1, stack, shown := [shown] } (c :: rest) :=
  .cons veils .nil

theorem Aligned.pair {c d shownFirst shownSecond : Char} (first : Veils c shownFirst)
    (second : Veils d shownSecond) (stack : List Mode) (rest : List Char) :
    Aligned { count := 2, stack, shown := [shownFirst, shownSecond] } (c :: d :: rest) :=
  .cons first (.cons second .nil)

theorem aligned_inCode (stack : List Mode) (c : Char) (rest : List Char) :
    (inCode stack c rest.head?).Aligned (c :: rest) := by
  unfold inCode
  split
  case h_1 _ ahead | h_2 _ ahead =>
    obtain ⟨rest, rfl⟩ := List.head?_eq_some_iff.mp ahead
    exact .pair (veils_blank '/') (veils_blank _) _ rest
  all_goals exact .single (.refl _) _ rest

theorem aligned_atBackslash (stack : List Mode) (rest : List Char) :
    (atBackslash stack rest.head? rest.tail.head?).Aligned ('\\' :: rest) := by
  unfold atBackslash
  split
  case h_1 ahead second =>
    obtain ⟨rest, rfl⟩ := List.head?_eq_some_iff.mp ahead
    obtain ⟨rest, rfl⟩ := List.head?_eq_some_iff.mp second
    exact .cons (.refl _) (.cons (.refl _) (.cons (.refl _) .nil))
  case h_2 ahead | h_3 ahead _ =>
    obtain ⟨rest, rfl⟩ := List.head?_eq_some_iff.mp ahead
    exact .pair (.refl _) (.refl _) stack rest
  case h_4 escaped _ _ ahead _ =>
    obtain ⟨rest, rfl⟩ := List.head?_eq_some_iff.mp ahead
    exact .pair (veils_blank '\\') (veils_blank escaped) stack rest
  case h_5 => exact .single (veils_blank '\\') stack rest

theorem aligned_inString (quote : Quote) (stack : List Mode) (c : Char) (rest : List Char) :
    (inString quote stack c rest.head? rest.tail.head?).Aligned (c :: rest) := by
  unfold inString
  split
  next backslash =>
    subst backslash
    exact aligned_atBackslash stack rest
  next =>
    split_ifs
    · exact .single (.refl c) _ rest
    · exact .single (.refl c) _ rest
    · exact .single (veils_blank c) _ rest

theorem aligned_inTemplate (stack : List Mode) (c : Char) (rest : List Char) :
    (inTemplate stack c rest.head?).Aligned (c :: rest) := by
  unfold inTemplate
  split
  case h_1 =>
    -- behind the last backslash of a script nothing is read, and nothing shows
    cases rest with
    | nil => exact .cons (veils_blank '\\') .nil
    | cons escaped rest => exact .pair (veils_blank '\\') (veils_blank escaped) stack rest
  case h_2 => exact .single (.refl _) _ rest
  case h_3 ahead =>
    obtain ⟨rest, rfl⟩ := List.head?_eq_some_iff.mp ahead
    exact .pair (.refl _) (.refl _) _ rest
  case h_4 => exact .single (veils_blank _) stack rest

/-- Whatever the modes and the text, a move shows what it reads, or veils it. -/
theorem aligned_facing (stack : List Mode) (c : Char) (rest : List Char) :
    (facing stack c rest).Aligned (c :: rest) := by
  unfold facing ofStack
  split
  case h_1 => exact .single (veils_blank c) _ rest
  case h_2 =>
    split
    next closing =>
      obtain ⟨rfl, ahead⟩ := closing
      obtain ⟨rest, rfl⟩ := List.head?_eq_some_iff.mp ahead
      exact .pair (veils_blank '*') (veils_blank '/') _ rest
    next => exact .single (veils_blank c) stack rest
  case h_3 quote _ => exact aligned_inString quote stack c rest
  case h_4 => exact aligned_inTemplate stack c rest
  case h_5 | h_6 => exact aligned_inCode stack c rest

end Move

/-! ## Runs -/

namespace Cursor

/-- The cursors of a scan: the one before the script, and those that its moves lead to, as far as
the move that leaves the script. -/
inductive Visits (script : List Char) : Cursor → Prop
  | start : Visits script start
  | advance {cursor : Cursor} (visited : Visits script cursor)
      (inside : cursor.place < script.toArray.size) :
      Visits script (cursor.advance (cursor.move script.toArray inside))

/-- A cursor inside a script has a character before it, and moves by what it faces there. -/
theorem exists_move_eq {script : List Char} {cursor : Cursor}
    (inside : cursor.place < script.toArray.size) :
    ∃ c rest, script.drop cursor.place = c :: rest ∧
      cursor.move script.toArray inside = Move.facing cursor.stack c rest := by
  have within : cursor.place < script.length := by simpa using inside
  refine ⟨script[cursor.place], script.drop (cursor.place + 1),
    List.drop_eq_getElem_cons within, ?_⟩
  rw [move, Move.facing, List.tail_drop, List.head?_drop, List.head?_drop]
  simp

/-- The cursor at which a scan ends is one of its cursors. -/
theorem Visits.scan {script : List Char} {cursor : Cursor} (visited : Visits script cursor) :
    Visits script (cursor.scan script.toArray) := by
  fun_induction Cursor.scan script.toArray cursor with
  | case1 cursor inside ih => exact ih (visited.advance inside)
  | case2 cursor outside => exact visited

theorem length_le_place_scan (script : List Char) (cursor : Cursor) :
    script.length ≤ (cursor.scan script.toArray).place := by
  fun_induction Cursor.scan script.toArray cursor with
  | case1 cursor inside ih => exact ih
  | case2 cursor outside => simpa using outside

theorem toList_shown_advance (cursor : Cursor) (move : Move) :
    (cursor.advance move).shown.toList = cursor.shown.toList ++ move.shown := by
  simp [Cursor.advance]

/-- At every cursor of a scan the buffer veils what lies before the cursor. -/
theorem Visits.forall₂_shown {script : List Char} {cursor : Cursor}
    (visited : Visits script cursor) :
    List.Forall₂ Veils (script.take cursor.place) cursor.shown.toList := by
  induction visited with
  | start => exact .nil
  | @advance cursor visited inside ih =>
    obtain ⟨c, rest, before, faces⟩ := exists_move_eq inside
    have aligned := Move.aligned_facing cursor.stack c rest
    rw [toList_shown_advance, faces, Cursor.advance, List.take_add, before]
    exact List.rel_append ih aligned

end Cursor

/-- A masked script veils the script. -/
theorem forall₂_mask (script : List Char) : List.Forall₂ Veils script (mask script) := by
  have ends : Cursor.Visits script (Cursor.start.scan script.toArray) := Cursor.Visits.start.scan
  have veils := ends.forall₂_shown
  rwa [List.take_of_length_le (Cursor.length_le_place_scan script .start)] at veils

theorem length_mask (script : List Char) : (mask script).length = script.length :=
  (forall₂_mask script).length_eq.symm

theorem mask_nil : mask [] = [] :=
  List.eq_nil_of_length_eq_zero (length_mask [])

end ImportSupply.Literal
