import ImportSupply.Proofs.Literal.Cursor
import Mathlib.Tactic.Common

/-!
# The roles of the characters of a script

What holds of a masked script is mostly said of its characters, one by one. A scanner reads a script
so: it gives each character its role, and what the cursor of a scan reads in one move, it decides
ahead of the characters (`Scanner.pending`). Both are the same scan:

* **moves** — the characters of a move have one role, and a scanner decides it for all of them at
  the first (`Move.exists_decides_facing`);
* **runs** — so a masked script shows what a scanner shows (`mask_eq_shown`), the modes of a cursor
  are those of the scanner at its place (`Cursor.Visits.meets`), and a cursor stands exactly
  where a scanner has nothing decided (`Cursor.exists_visits_iff`).
-/

namespace ImportSupply.Literal

/-- What a character of a script is to its reader. -/
inductive Role where
  /-- Executable code. -/
  | code
  /-- A quote, a backtick, or the opening or closing of an interpolation. -/
  | delimiter
  /-- A backslash and the line end it hides, inside a plain string. -/
  | continuation
  /-- Part of a comment, a string body or static template text. -/
  | hidden
  deriving DecidableEq, Repr

/-- How a masked text shows a character of a given role. -/
def Role.display (role : Role) (c : Char) : Char :=
  if role = .hidden then blank c else c

/-- The state of a scan between two characters: the stack of modes, top first, and the roles already
decided for the next characters. -/
structure Scanner where
  stack : List Mode
  pending : List Role
  deriving DecidableEq, Repr

namespace Scanner

/-- The state before a script: plain code, nothing decided. -/
def start : Scanner :=
  ⟨[.code], []⟩

/-- One character of executable code: it may open a comment, a string or a template, and braces are
counted inside an interpolation. -/
def stepCode (stack : List Mode) (c : Char) (rest : List Char) : Role × Scanner :=
  match c, rest.head?, stack with
  | '/', some '/', _ => (.hidden, ⟨.lineComment :: stack, [.hidden]⟩)
  | '/', some '*', _ => (.hidden, ⟨.blockComment :: stack, [.hidden]⟩)
  | '\'', _, _ => (.delimiter, ⟨.quoted .single :: stack, []⟩)
  | '"', _, _ => (.delimiter, ⟨.quoted .double :: stack, []⟩)
  | '\x60', _, _ => (.delimiter, ⟨.template :: stack, []⟩)
  | '{', _, .interpolation depth :: below => (.code, ⟨.interpolation (depth + 1) :: below, []⟩)
  | '}', _, .interpolation 0 :: below => (.delimiter, ⟨below, []⟩)
  | '}', _, .interpolation (depth + 1) :: below => (.code, ⟨.interpolation depth :: below, []⟩)
  | _, _, _ => (.code, ⟨stack, []⟩)

/-- One character of a plain string: a backslash hides the next character but keeps a line end, and
the string ends at its quote or, unclosed, with its line. -/
def stepQuoted (quote : Quote) (stack : List Mode) (c : Char) (rest : List Char) :
    Role × Scanner :=
  if c = '\\' then
    match rest.head?, rest.tail.head? with
    | some '\r', some '\n' => (.continuation, ⟨stack, [.continuation, .continuation]⟩)
    | some '\n', _ => (.continuation, ⟨stack, [.continuation]⟩)
    | some '\r', _ => (.continuation, ⟨stack, [.continuation]⟩)
    | _, _ => (.hidden, ⟨stack, [.hidden]⟩)
  else if c = quote.char then (.delimiter, ⟨stack.tail, []⟩)
  else if c = '\n' then (.hidden, ⟨stack.tail, []⟩)
  else (.hidden, ⟨stack, []⟩)

/-- One character of static template text: a backslash hides the next character, a backtick ends
the template, and `$` before a brace opens an interpolation. -/
def stepTemplate (stack : List Mode) (c : Char) (rest : List Char) : Role × Scanner :=
  match c, rest.head? with
  | '\\', _ => (.hidden, ⟨stack, [.hidden]⟩)
  | '\x60', _ => (.delimiter, ⟨stack.tail, []⟩)
  | '$', some '{' => (.delimiter, ⟨.interpolation 0 :: stack, [.delimiter]⟩)
  | _, _ => (.hidden, ⟨stack, []⟩)

/-- The role of a character and the state behind it, given what follows the character. -/
def step (scanner : Scanner) (c : Char) (rest : List Char) : Role × Scanner :=
  match scanner.pending with
  -- what an earlier character decided goes before the mode at hand
  | role :: pending => (role, ⟨scanner.stack, pending⟩)
  | [] =>
      match Mode.top scanner.stack with
      | .lineComment =>
          (.hidden, ⟨if c = '\n' then scanner.stack.tail else scanner.stack, []⟩)
      | .blockComment =>
          if c = '*' ∧ rest.head? = some '/' then (.hidden, ⟨scanner.stack.tail, [.hidden]⟩)
          else (.hidden, ⟨scanner.stack, []⟩)
      | .quoted quote => stepQuoted quote scanner.stack c rest
      | .template => stepTemplate scanner.stack c rest
      | .code => stepCode scanner.stack c rest
      | .interpolation _ => stepCode scanner.stack c rest

/-- A text as it shows when scanned from a state. -/
def shown (scanner : Scanner) : List Char → List Char
  | [] => []
  | c :: rest => (scanner.step c rest).1.display c :: (scanner.step c rest).2.shown rest

@[simp]
theorem shown_nil (scanner : Scanner) : scanner.shown [] = [] :=
  rfl

theorem shown_cons (scanner : Scanner) (c : Char) (rest : List Char) :
    scanner.shown (c :: rest) =
      (scanner.step c rest).1.display c :: (scanner.step c rest).2.shown rest :=
  rfl

/-- The state of a scan behind a text, if another one follows. -/
def behind (scanner : Scanner) : List Char → List Char → Scanner
  | [], _ => scanner
  | c :: front, back => (scanner.step c (front ++ back)).2.behind front back

theorem behind_append (scanner : Scanner) (front middle back : List Char) :
    scanner.behind (front ++ middle) back =
      (scanner.behind front (middle ++ back)).behind middle back := by
  induction front generalizing scanner with
  | nil => rfl
  | cons c front ih =>
    rw [List.cons_append, behind, behind, ih, List.append_assoc]

/-- The state in which the scan of a script stands between two parts of it. -/
def reached (front back : List Char) : Scanner :=
  start.behind front back

theorem reached_concat (front : List Char) (c : Char) (rest : List Char) :
    reached (front ++ [c]) rest = ((reached front (c :: rest)).step c rest).2 := by
  rw [reached, behind_append]
  rfl

/-! ## Decided roles -/

/-- What shows of characters with decided roles. -/
theorem shown_replicate (stack : List Mode) (role : Role) (ahead : Nat) (text : List Char) :
    shown ⟨stack, List.replicate ahead role⟩ text =
      (text.take ahead).map role.display ++ shown ⟨stack, []⟩ (text.drop ahead) := by
  induction ahead generalizing text with
  | zero => rfl
  | succ ahead ih =>
    cases text with
    | nil => rfl
    | cons c rest =>
      rw [List.replicate_succ, shown, step, ih]
      rfl

/-- Decided roles are used up one by one. -/
theorem behind_replicate (stack : List Mode) (role : Role) {ahead : Nat} {front : List Char}
    (within : front.length ≤ ahead) (back : List Char) :
    behind ⟨stack, List.replicate ahead role⟩ front back =
      ⟨stack, List.replicate (ahead - front.length) role⟩ := by
  induction front generalizing ahead with
  | nil => rfl
  | cons c front ih =>
    cases ahead with
    | zero => simp at within
    | succ ahead =>
      rw [List.length_cons, Nat.add_le_add_iff_right] at within
      rw [List.replicate_succ, behind, step, ih within, List.length_cons, Nat.add_sub_add_right]

end Scanner

/-! ## Moves -/

namespace Move

/-- What a scanner makes of the first character of a move: its role is the role of all of them, and
decided for so many others. -/
structure Decides (move : Move) (text : List Char) (first : Role × Scanner) (ahead : Nat) :
    Prop where
  behind : first.2 = ⟨move.stack, List.replicate ahead first.1⟩
  shown : move.shown = (text.take (ahead + 1)).map first.1.display
  /-- Only behind the last character of a script a move and a scanner may reckon differently. -/
  count : move.count = ahead + 1 ∨ text.length = 1

theorem exists_decides_inCode (stack : List Mode) (c : Char) (rest : List Char) :
    ∃ ahead, (inCode stack c rest.head?).Decides (c :: rest) (Scanner.stepCode stack c rest)
      ahead := by
  unfold Scanner.stepCode
  split
  case h_1 _ ahead | h_2 _ ahead =>
    obtain ⟨rest, rfl⟩ := List.head?_eq_some_iff.mp ahead
    exact ⟨1, rfl, rfl, .inl rfl⟩
  case h_9 =>
    unfold inCode
    split
    case h_9 => exact ⟨0, rfl, rfl, .inl rfl⟩
    all_goals simp_all
  all_goals exact ⟨0, rfl, rfl, .inl rfl⟩

theorem exists_decides_atBackslash (quote : Quote) (stack : List Mode) (rest : List Char) :
    ∃ ahead, (atBackslash stack rest.head? rest.tail.head?).Decides ('\\' :: rest)
      (Scanner.stepQuoted quote stack '\\' rest) ahead := by
  unfold Scanner.stepQuoted
  rw [if_pos rfl]
  split
  case h_1 ahead second =>
    obtain ⟨rest, rfl⟩ := List.head?_eq_some_iff.mp ahead
    obtain ⟨rest, rfl⟩ := List.head?_eq_some_iff.mp second
    exact ⟨2, rfl, rfl, .inl rfl⟩
  case h_2 ahead =>
    obtain ⟨rest, rfl⟩ := List.head?_eq_some_iff.mp ahead
    exact ⟨1, rfl, rfl, .inl rfl⟩
  case h_3 ahead short =>
    obtain ⟨rest, rfl⟩ := List.head?_eq_some_iff.mp ahead
    unfold atBackslash
    split
    case h_3 => exact ⟨1, rfl, rfl, .inl rfl⟩
    all_goals simp_all
  case h_4 =>
    cases rest with
    | nil => exact ⟨1, rfl, rfl, .inr rfl⟩
    | cons escaped rest =>
      unfold atBackslash
      split
      case h_4 ahead _ =>
        obtain rfl := Option.some.inj ahead
        exact ⟨1, rfl, rfl, .inl rfl⟩
      all_goals simp_all

theorem exists_decides_inString (quote : Quote) (stack : List Mode) (c : Char)
    (rest : List Char) :
    ∃ ahead, (inString quote stack c rest.head? rest.tail.head?).Decides (c :: rest)
      (Scanner.stepQuoted quote stack c rest) ahead := by
  by_cases backslash : c = '\\'
  · subst backslash
    exact exists_decides_atBackslash quote stack rest
  unfold Scanner.stepQuoted inString
  rw [if_neg backslash, if_neg backslash]
  split_ifs with closing lineFeed
  · exact ⟨0, rfl, rfl, .inl rfl⟩
  · subst lineFeed
    exact ⟨0, rfl, rfl, .inl rfl⟩
  · exact ⟨0, rfl, rfl, .inl rfl⟩

theorem exists_decides_inTemplate (stack : List Mode) (c : Char) (rest : List Char) :
    ∃ ahead, (inTemplate stack c rest.head?).Decides (c :: rest)
      (Scanner.stepTemplate stack c rest) ahead := by
  unfold Scanner.stepTemplate
  split
  case h_1 =>
    cases rest with
    | nil => exact ⟨1, rfl, rfl, .inr rfl⟩
    | cons escaped rest => exact ⟨1, rfl, rfl, .inl rfl⟩
  case h_2 => exact ⟨0, rfl, rfl, .inl rfl⟩
  case h_3 ahead =>
    obtain ⟨rest, rfl⟩ := List.head?_eq_some_iff.mp ahead
    exact ⟨1, rfl, rfl, .inl rfl⟩
  case h_4 =>
    unfold inTemplate
    split
    case h_4 => exact ⟨0, rfl, rfl, .inl rfl⟩
    all_goals simp_all

/-- A scanner gives the characters of a move one role, at the first of them. -/
theorem exists_decides_facing (stack : List Mode) (c : Char) (rest : List Char) :
    ∃ ahead, (facing stack c rest).Decides (c :: rest) (Scanner.step ⟨stack, []⟩ c rest)
      ahead := by
  unfold Scanner.step facing ofStack
  dsimp only
  generalize Mode.top stack = mode
  cases mode with
  | lineComment => exact ⟨0, rfl, rfl, .inl rfl⟩
  | blockComment =>
    dsimp only
    split
    next closing =>
      obtain ⟨rfl, ahead⟩ := closing
      obtain ⟨rest, rfl⟩ := List.head?_eq_some_iff.mp ahead
      exact ⟨1, rfl, rfl, .inl rfl⟩
    next => exact ⟨0, rfl, rfl, .inl rfl⟩
  | quoted quote => exact exists_decides_inString quote stack c rest
  | template => exact exists_decides_inTemplate stack c rest
  | code | interpolation => exact exists_decides_inCode stack c rest

variable {move : Move} {rest : List Char} {c : Char} {stack : List Mode} {ahead : Nat}

/-- What shows of a text is what its first move shows, and what shows behind that. -/
theorem Decides.shown_cons
    (decides : move.Decides (c :: rest) (Scanner.step ⟨stack, []⟩ c rest) ahead) :
    Scanner.shown ⟨stack, []⟩ (c :: rest) =
      move.shown ++ Scanner.shown ⟨move.stack, []⟩ ((c :: rest).drop move.count) := by
  have left : (c :: rest).drop move.count = rest.drop ahead := by
    rcases decides.count with count | last
    · rw [count, List.drop_succ_cons]
    · obtain rfl : rest = [] := by simpa using last
      rw [List.drop_nil, List.drop_of_length_le move.forward]
  rw [Scanner.shown, decides.behind, Scanner.shown_replicate, decides.shown, left]
  rfl

/-- Inside a move and right behind it, the roles not yet used up are still decided. -/
theorem Decides.behind_take
    (decides : move.Decides (c :: rest) (Scanner.step ⟨stack, []⟩ c rest) ahead) {read : Nat}
    (within : min read rest.length ≤ ahead) :
    Scanner.behind ⟨stack, []⟩ ((c :: rest).take (read + 1)) ((c :: rest).drop (read + 1)) =
      ⟨move.stack, List.replicate (ahead - min read rest.length)
        (Scanner.step ⟨stack, []⟩ c rest).1⟩ := by
  rw [List.take_succ_cons, List.drop_succ_cons, Scanner.behind, List.take_append_drop,
    decides.behind, Scanner.behind_replicate _ _ (by rwa [List.length_take]), List.length_take]

end Move

/-! ## Runs -/

theorem Cursor.toList_shown_scan (script : List Char) (cursor : Cursor) :
    (cursor.scan script.toArray).shown.toList =
      cursor.shown.toList ++ Scanner.shown ⟨cursor.stack, []⟩ (script.drop cursor.place) := by
  fun_induction Cursor.scan script.toArray cursor with
  | case1 cursor inside ih =>
    obtain ⟨c, rest, before, faces⟩ := exists_move_eq inside
    obtain ⟨ahead, decides⟩ := Move.exists_decides_facing cursor.stack c rest
    rw [ih, toList_shown_advance, faces, Cursor.advance, before, decides.shown_cons,
      List.append_assoc, ← before, List.drop_drop]
  | case2 cursor outside =>
    have behind : script.drop cursor.place = [] := by simpa using outside
    rw [behind, Scanner.shown, List.append_nil]

/-- A masked script shows what a scanner shows. -/
theorem mask_eq_shown (script : List Char) : mask script = Scanner.start.shown script :=
  Cursor.toList_shown_scan script .start

/-- The state of a scanner at a place of a script. -/
def Scanner.stateAt (script : List Char) (place : Nat) : Scanner :=
  reached (script.take place) (script.drop place)

theorem Scanner.stateAt_append (front back : List Char) :
    stateAt (front ++ back) front.length = reached front back := by
  rw [stateAt, List.take_left, List.drop_left]

theorem Scanner.stateAt_of_length_le {script : List Char} {place : Nat}
    (behind : script.length ≤ place) : stateAt script place = reached script [] := by
  rw [stateAt, List.take_of_length_le behind, List.drop_of_length_le behind]

theorem Scanner.stateAt_add (script : List Char) (place read : Nat) :
    stateAt script (place + read) = (stateAt script place).behind
      ((script.drop place).take read) ((script.drop place).drop read) := by
  rw [stateAt, stateAt, reached, reached, List.take_add, behind_append, List.drop_drop,
    ← List.drop_drop, List.take_append_drop]

namespace Cursor

/-- A cursor and a scanner at one place of a script. -/
structure Meets (script : List Char) (cursor : Cursor) : Prop where
  stack : (Scanner.stateAt script cursor.place).stack = cursor.stack
  settled : cursor.place < script.length → (Scanner.stateAt script cursor.place).pending = []

variable {script : List Char} {cursor : Cursor}

theorem Meets.stateAt_eq (meets : Meets script cursor) (inside : cursor.place < script.length) :
    Scanner.stateAt script cursor.place = ⟨cursor.stack, []⟩ :=
  congrArg₂ Scanner.mk meets.stack (meets.settled inside)

/-- How a scanner goes through a move: `left` characters follow the one at hand, and for `ahead` of
them the move decides. -/
theorem Meets.exists_stateAt_eq (meets : Meets script cursor)
    (inside : cursor.place < script.toArray.size) :
    ∃ role ahead left, script.length = cursor.place + (left + 1) ∧
      ((cursor.move script.toArray inside).count = ahead + 1 ∨ left = 0) ∧
      ∀ read, min read left ≤ ahead → Scanner.stateAt script (cursor.place + (read + 1)) =
        ⟨(cursor.move script.toArray inside).stack,
          List.replicate (ahead - min read left) role⟩ := by
  obtain ⟨c, rest, before, faces⟩ := exists_move_eq inside
  obtain ⟨ahead, decides⟩ := Move.exists_decides_facing cursor.stack c rest
  have within : cursor.place < script.length := by simpa using inside
  have long := congrArg List.length before
  rw [List.length_drop, List.length_cons] at long
  rw [faces]
  refine ⟨(Scanner.step ⟨cursor.stack, []⟩ c rest).1, ahead, rest.length, by omega,
    by simpa using decides.count, fun read decided => ?_⟩
  rw [Scanner.stateAt_add, meets.stateAt_eq within, before]
  exact decides.behind_take decided

/-- At every cursor of a scan a scanner has the same modes, and nothing decided. -/
theorem Visits.meets (visited : Visits script cursor) : Meets script cursor := by
  induction visited with
  | start => exact ⟨rfl, fun _ => rfl⟩
  | @advance cursor visited inside ih =>
    obtain ⟨role, ahead, left, long, count, stateAt⟩ := ih.exists_stateAt_eq inside
    have forward := (cursor.move script.toArray inside).forward
    have state := stateAt ((cursor.move script.toArray inside).count - 1) (by omega)
    rw [Nat.sub_add_cancel forward] at state
    refine ⟨congrArg Scanner.stack state, fun stillInside => ?_⟩
    -- a move that ends inside the script has used up what it decided
    have usedUp : ahead - min ((cursor.move script.toArray inside).count - 1) left = 0 := by
      simp only [Cursor.advance] at stillInside
      omega
    rw [usedUp] at state
    exact congrArg Scanner.pending state

/-- Every place of a script is read by a move of its scan. -/
theorem exists_visits_le {place : Nat} (within : place < script.length) :
    ∃ cursor, ∃ inside : cursor.place < script.toArray.size, Visits script cursor ∧
      cursor.place ≤ place ∧ place < cursor.place + (cursor.move script.toArray inside).count := by
  induction place with
  | zero =>
    have inside : start.place < script.toArray.size := within
    have forward := (start.move script.toArray inside).forward
    exact ⟨start, inside, .start, Nat.le_refl 0, Nat.lt_add_left 0 forward⟩
  | succ place ih =>
    obtain ⟨cursor, inside, visited, before, behind⟩ := ih (by omega)
    by_cases last : place + 1 = cursor.place + (cursor.move script.toArray inside).count
    · have next : (cursor.advance (cursor.move script.toArray inside)).place = place + 1 :=
        last.symm
      have inside' : (cursor.advance (cursor.move script.toArray inside)).place <
          script.toArray.size := by simpa [next] using within
      have forward := (move script.toArray _ inside').forward
      exact ⟨_, inside', visited.advance inside, Nat.le_of_eq next, by omega⟩
    · exact ⟨cursor, inside, visited, by omega, by omega⟩

/-- A cursor stands exactly where a scanner has nothing decided. -/
theorem exists_visits_iff {place : Nat} (within : place < script.length) :
    (∃ cursor, Visits script cursor ∧ cursor.place = place) ↔
      (Scanner.stateAt script place).pending = [] := by
  constructor
  · rintro ⟨cursor, visited, rfl⟩
    exact visited.meets.settled within
  intro settled
  obtain ⟨cursor, inside, visited, before, behind⟩ := exists_visits_le within
  refine ⟨cursor, visited, ?_⟩
  -- inside a move something is decided
  by_contra apart
  obtain ⟨read, rfl⟩ : ∃ read, place = cursor.place + (read + 1) :=
    ⟨place - cursor.place - 1, by omega⟩
  obtain ⟨role, ahead, left, long, count, stateAt⟩ := visited.meets.exists_stateAt_eq inside
  rw [stateAt read (by omega), List.replicate_eq_nil_iff] at settled
  omega

end Cursor

end ImportSupply.Literal
